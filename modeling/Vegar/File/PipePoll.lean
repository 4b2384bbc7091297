import Vegar.File.PipeFits

/-!
# What `poll` says of a pipe

`Pipe::poll` looks at the ring buffer only.  `Pipe::read` and `Pipe::write`
also look at the other end, and `write` goes around once more after it has
filled the buffer.  A call returns at once if none of its passes yields.
-/

namespace Vegar.File

open Vegar.Lib

/-- `PollState`. -/
structure PollState where
  readable : Bool
  writable : Bool
  deriving DecidableEq, Repr

namespace PipeState

/-- `Pipe::poll` on one of the ends. -/
def poll (state : PipeState) (readable : Bool) : LinuxResult PollState := .ok
    { readable := readable && decide (0 < state.ring.availableRead)
      writable := !readable && decide (0 < state.ring.availableWrite) }

/-- `poll` on the read end reports it readable. -/
def PollsReadable (state : PipeState) : Prop := (state.poll true).map PollState.readable = .ok true

/-- `poll` on the write end reports it writable. -/
def PollsWritable (state : PipeState) : Prop := (state.poll false).map PollState.writable = .ok true

def ReaderWaits (state : PipeState) : Prop := state.ring.availableRead = 0 ∧ state.closed = false

def ReturnsAtOnce (state : PipeState) (entry : PipeAction) (waits : PipeState → Prop) : Prop :=
  ∃ passes after call, state.callAlone entry passes = some after ∧
    after.calls[state.calls.length]? = some call ∧
    (call.isReading || call.isWriting) = false ∧
    ∀ earlier < passes, ∀ between, state.callAlone entry earlier = some between → ¬ waits between

end PipeState

section Polling

variable {state : PipeState} {entry : PipeAction} {waits : PipeState → Prop}

theorem pollsReadable_iff :
    state.PollsReadable ↔ 0 < state.ring.availableRead := by
  simp [PipeState.PollsReadable, PipeState.poll, Except.map]

theorem pollsWritable_iff :
    state.PollsWritable ↔ 0 < state.ring.availableWrite := by
  simp [PipeState.PollsWritable, PipeState.poll, Except.map]

theorem PipeState.closed_of_readEnd (readOpen : state.readEnd = true) :
    state.closed = !state.writeEnd := by
  rw [closed, strongCount, readOpen]
  cases state.writeEnd <;> rfl

theorem PipeState.closed_of_writeEnd (writeOpen : state.writeEnd = true) :
    state.closed = !state.readEnd := by
  rw [closed, strongCount, writeOpen]
  cases state.readEnd <;> rfl

theorem not_returnsAtOnce (pass : Nat)
    (inLoop :
      ∀ passes ≤ pass, ∃ between call,
        state.callAlone entry passes = some between ∧
          between.calls[state.calls.length]? = some call ∧
          (call.isReading || call.isWriting) = true)
    (stuck : ∃ between, state.callAlone entry pass = some between ∧ waits between) :
    ¬ state.ReturnsAtOnce entry waits := by
  rintro ⟨passes, after, call, ran, isCall, returned, neverWaits⟩
  by_cases early : passes ≤ pass
  · obtain ⟨between, current, alsoRan, isCurrent, looping⟩ := inLoop passes early
    obtain rfl := Option.some.inj (ran.symm.trans alsoRan)
    obtain rfl := Option.some.inj (isCall.symm.trans isCurrent)
    rw [looping] at returned
    cases returned
  · obtain ⟨between, alsoRan, isWaiting⟩ := stuck
    exact neverWaits pass (by omega) between alsoRan isWaiting

/-! ## Reading -/

theorem callAlone_read_zero {len : Nat} (readOpen : state.readEnd = true) (nonempty : len ≠ 0) :
    state.callAlone (.read true len) 0 = some (state.start (.reading len)) := by
  simp [PipeState.callAlone, Machine.exec, pipeMachine, pipeNext,
    PipeState.endAlive, readOpen, readEntry, nonempty]

theorem exists_readSection_of_not_waits
    {len : Nat} (nonempty : len ≠ 0) (ready : ¬ state.ReaderWaits) :
    ∃ bytes ring, readSection state.ring state.closed len = (some bytes, ring) := by
  unfold readSection
  by_cases nothing : min state.ring.availableRead len = 0
  · have noData : state.ring.availableRead = 0 := by omega
    have isClosed : state.closed = true := by
      by_contra isOpen
      exact ready ⟨noData, Bool.eq_false_iff.mpr isOpen⟩
    exact ⟨[], state.ring, by simp [nothing, isClosed]⟩
  · exact ⟨_, _, if_neg nothing⟩

theorem read_returnsAtOnce_iff {len : Nat} (readOpen : state.readEnd = true) (nonempty : len ≠ 0) :
    state.ReturnsAtOnce (.read true len) PipeState.ReaderWaits ↔ ¬ state.ReaderWaits := by
  have entered := callAlone_read_zero readOpen nonempty
  constructor
  · intro returns isWaiting
    refine not_returnsAtOnce 0 ?_ ⟨_, entered, isWaiting⟩ returns
    intro passes atMost
    obtain rfl : passes = 0 := by omega
    exact ⟨_, _, entered, getElem?_start _, rfl⟩
  · intro ready
    obtain ⟨bytes, ring, returns⟩ := exists_readSection_of_not_waits nonempty ready
    let after : PipeState :=
      { state.start (.reading len) with
        ring := ring
        calls :=
          (state.start (.reading len)).calls.set state.calls.length (.readReturned len (.ok bytes))
        deliveries := state.deliveries ++ [(state.calls.length, bytes)] }
    have passed :
        pipeNext (state.start (.reading len)) (.lockSection state.calls.length) = some after := by
      have sameSection :
          readSection (state.start (.reading len)).ring
              (state.start (.reading len)).closed len = (some bytes, ring) :=
        returns
      simp only [pipeNext, getElem?_start, sameSection]
      rfl
    have ran := @callAlone_succ state (.read true len) 0
    rw [entered, Option.bind_some, passed] at ran
    refine ⟨1, after, _, ran, getElem?_set_start _ _, rfl, ?_⟩
    intro earlier before between alsoRan isWaiting
    obtain rfl : earlier = 0 := by omega
    obtain rfl := Option.some.inj (entered.symm.trans alsoRan)
    exact ready isWaiting

/-! ## Writing one byte -/

theorem write_returnsAtOnce_of_closed {buf : List UInt8} (writeOpen : state.writeEnd = true)
    (readDropped : state.readEnd = false) :
    state.ReturnsAtOnce (.write false buf) PipeState.WriterWaits := by
  have isClosed : state.closed = true := by
    rw [PipeState.closed_of_writeEnd writeOpen, readDropped]
    rfl
  refine ⟨0, state.start (.writeReturned buf (.error .EPIPE)), _, ?_, getElem?_start _, rfl, ?_⟩
  · simp [PipeState.callAlone, Machine.exec, pipeMachine, pipeNext,
      PipeState.endAlive, writeOpen, writeEntry, isClosed]
  · intro earlier before
    omega

theorem write_returnsAtOnce_of_completes
    {buf : List UInt8} (completes : state.WriteCompletesAtOnce buf) :
    state.ReturnsAtOnce (.write false buf) PipeState.WriterWaits := by
  obtain ⟨passes, after, ran, returned, neverWaits⟩ := completes
  exact ⟨passes, after, _, ran, returned, rfl, neverWaits⟩

theorem writeByte_returnsAtOnce_iff (byte : UInt8) (readOpen : state.readEnd = true)
    (writeOpen : state.writeEnd = true) :
    state.ReturnsAtOnce (.write false [byte]) PipeState.WriterWaits ↔
      1 < state.ring.availableWrite := by
  have nonempty : [byte] ≠ [] := List.cons_ne_nil _ _
  have entered := writeAlone_zero readOpen writeOpen nonempty
  constructor
  · intro returns
    by_contra tight
    by_cases full : state.ring.availableWrite = 0
    · refine not_returnsAtOnce 0 ?_ ⟨_, entered, full, ?_⟩ returns
      · intro passes atMost
        obtain rfl : passes = 0 := by omega
        exact ⟨_, _, entered, getElem?_start _, rfl⟩
      · exact PipeState.closed_of_open readOpen writeOpen
    · have exactly : [byte].length = state.ring.availableWrite := by
        rw [List.length_singleton]
        omega
      obtain ⟨between, progress, ran, looping, isWaiting⟩ :=
        writeAlone_one_of_full readOpen writeOpen nonempty exactly
      refine not_returnsAtOnce 1 ?_ ⟨between, ran, isWaiting⟩ returns
      intro passes atMost
      match passes with
      | 0 => exact ⟨_, _, entered, getElem?_start _, rfl⟩
      | 1 => exact ⟨between, _, ran, looping, rfl⟩
  · intro room
    apply write_returnsAtOnce_of_completes
    exact writeCompletes_of_lt readOpen writeOpen nonempty room

end Polling

/-- `poll` on the read end is right exactly where there is data or the write
end is open; on the write end exactly where a dropped read end leaves room in
the buffer and an open one does not leave room for one byte alone. -/
theorem poll_predicts_iff (state : PipeState) (len : Nat) (nonempty : len ≠ 0) (byte : UInt8) :
    (state.readEnd = true →
      ((state.PollsReadable ↔ state.ReturnsAtOnce (.read true len) PipeState.ReaderWaits) ↔
        0 < state.ring.availableRead ∨ state.writeEnd = true)) ∧
    (state.writeEnd = true →
      ((state.PollsWritable ↔ state.ReturnsAtOnce (.write false [byte]) PipeState.WriterWaits) ↔
        (state.readEnd = false → 0 < state.ring.availableWrite) ∧
          (state.readEnd = true → state.ring.availableWrite ≠ 1))) := by
  constructor
  · intro readOpen
    rw [pollsReadable_iff, read_returnsAtOnce_iff readOpen nonempty,
      PipeState.ReaderWaits, PipeState.closed_of_readEnd readOpen]
    cases state.writeEnd with
    | false => simp
    | true => simp [Nat.pos_iff_ne_zero]
  · intro writeOpen
    rw [pollsWritable_iff]
    cases readOpen : state.readEnd with
    | false =>
        simp [write_returnsAtOnce_of_closed writeOpen readOpen]
    | true =>
        rw [writeByte_returnsAtOnce_iff byte readOpen writeOpen]
        simp
        omega

/-- A new pipe is not readable and has room for a byte. -/
theorem poll_predicts_iff_new :
    pipeMachine.Reachable .new ∧
      (PipeState.new.PollsReadable ↔
        PipeState.new.ReturnsAtOnce (.read true 1) PipeState.ReaderWaits) ∧
      (PipeState.new.PollsWritable ↔
        PipeState.new.ReturnsAtOnce (.write false [7]) PipeState.WriterWaits) := by
  obtain ⟨reading, writing⟩ := poll_predicts_iff .new 1 (by decide) 7
  exact ⟨Machine.Reachable.start rfl, (reading rfl).mpr (.inr rfl),
      (writing rfl).mpr ⟨nofun, fun _ => by decide⟩⟩

/-- The write end of a new pipe is dropped: a read returns at once with the
end of the file, and `poll` does not report it. -/
theorem poll_silent_at_end_of_file :
    ∃ state, pipeMachine.exec .new [.drop false] = some state ∧
      pipeMachine.Reachable state ∧ state.readEnd = true ∧
      state.ReturnsAtOnce (.read true 1) PipeState.ReaderWaits ∧
      ¬ state.PollsReadable := by
  let state : PipeState := { PipeState.new with writeEnd := false }
  have executed : pipeMachine.exec .new [.drop false] = some state := rfl
  have started : pipeMachine.Reachable .new := Machine.Reachable.start rfl
  refine ⟨state, executed, started.exec executed, rfl, ?_, ?_⟩
  · apply (read_returnsAtOnce_iff rfl (by decide)).mpr
    rintro ⟨-, isOpen⟩
    cases isOpen
  · rw [pollsReadable_iff]
    decide

end Vegar.File

import Vegar.File.Pipe

/-!
# Writes that fit

A `Pipe::write` whose bytes fit the free space, with nobody else at the pipe.
The loop tests whether everything is written before it stores a byte, never
after the last one of a pass.
-/

namespace Vegar.File

open Vegar.Lib

namespace PipeState

def WriterWaits (state : PipeState) : Prop := state.ring.availableWrite = 0 ∧ state.closed = false

def writeAlone (state : PipeState) (buf : List UInt8) (passes : Nat) :
    Option PipeState :=
  pipeMachine.exec state
    (.write false buf :: List.replicate passes (.lockSection state.calls.length))

def callAlone (state : PipeState) (entry : PipeAction) (passes : Nat) :
    Option PipeState :=
  pipeMachine.exec state (entry :: List.replicate passes (.lockSection state.calls.length))

def WriteCompletesAtOnce (state : PipeState) (buf : List UInt8) : Prop :=
  ∃ passes after, state.writeAlone buf passes = some after ∧
    after.calls[state.calls.length]? = some (.writeReturned buf (.ok buf.length)) ∧
    ∀ earlier < passes, ∀ between,
      state.writeAlone buf earlier = some between → ¬ between.WriterWaits

end PipeState

/-! ## One pass -/

theorem finished_writeBytes (count : Nat) (ring : PipeRingBuffer) (progress : WriteProgress) :
    (writeBytes count ring progress).finished =
      decide (progress.buf.length - progress.writeSize < count) := by
  induction count generalizing ring progress with
  | zero => simp [writeBytes]
  | succ count ih =>
      have inside := progress.inside
      by_cases atEnd : progress.writeSize = progress.buf.length
      · simp [writeBytes, atEnd]
      · simp only [writeBytes, dif_neg atEnd, ih]
        congr 1
        apply propext
        omega

theorem writeSize_writeBytes (count : Nat) (ring : PipeRingBuffer) (progress : WriteProgress) :
    (writeBytes count ring progress).progress.writeSize =
      min progress.buf.length (progress.writeSize + count) := by
  induction count generalizing ring progress with
  | zero =>
      have inside := progress.inside
      simp only [writeBytes]
      omega
  | succ count ih =>
      have inside := progress.inside
      by_cases atEnd : progress.writeSize = progress.buf.length
      · simp only [writeBytes, dif_pos atEnd]
        omega
      · simp only [writeBytes, dif_neg atEnd, ih]
        omega

theorem writeSection_of_fits {ring : PipeRingBuffer} {buf : List UInt8} (closed : Bool)
    (nonempty : buf ≠ []) (fits : buf.length ≤ ring.availableWrite) :
    ∃ turn,
      writeSection ring closed ⟨buf, 0, Nat.zero_le _⟩ =
        (if buf.length < ring.availableWrite then some buf.length else none, turn) ∧
      turn.ring.availableWrite = ring.availableWrite - buf.length := by
  let progress : WriteProgress := ⟨buf, 0, Nat.zero_le _⟩
  let turn := writeBytes ring.availableWrite ring progress
  have positive : 0 < buf.length := List.length_pos_iff.mpr nonempty
  have room : ring.availableWrite ≠ 0 := by omega
  have written : turn.progress.writeSize = buf.length := by
    rw [writeSize_writeBytes]
    change min buf.length (0 + ring.availableWrite) = buf.length
    omega
  have isFinished : turn.finished = decide (buf.length < ring.availableWrite) :=
    finished_writeBytes _ _ _
  obtain ⟨contents, -, taken, -⟩ := writeBytes_spec ring.availableWrite ring progress (le_refl _)
  have storedLength : turn.stored.length = buf.length := by
    have lengths := congrArg List.length taken
    change (buf.take turn.progress.writeSize).length = ([] ++ turn.stored).length at lengths
    rw [written, List.take_length] at lengths
    exact lengths.symm
  refine ⟨turn, ?_, ?_⟩
  · simp only [writeSection, if_neg room]
    change (if turn.finished then some turn.progress.writeSize else none, turn) = _
    rw [written, isFinished]
    simp only [decide_eq_true_eq]
  · have level := congrArg List.length contents
    rw [List.length_append, PipeRingBuffer.length_contents, PipeRingBuffer.length_contents] at level
    have before := ring.availableRead_add_availableWrite
    have after := turn.ring.availableRead_add_availableWrite
    change turn.ring.availableRead = ring.availableRead + turn.stored.length at level
    omega

/-! ## The passes of a call -/

section Alone

variable {state : PipeState} {buf : List UInt8}

theorem PipeState.closed_of_open
    (readOpen : state.readEnd = true) (writeOpen : state.writeEnd = true) :
    state.closed = false := by
  rw [closed, strongCount, readOpen, writeOpen]
  rfl

theorem writeAlone_zero (readOpen : state.readEnd = true) (writeOpen : state.writeEnd = true)
    (nonempty : buf ≠ []) :
    state.writeAlone buf 0 = some (state.start (.writing ⟨buf, 0, Nat.zero_le _⟩)) := by
  have isOpen := PipeState.closed_of_open readOpen writeOpen
  have notEmpty : buf.isEmpty = false := by
    simpa using nonempty
  simp [PipeState.writeAlone, Machine.exec, pipeMachine, pipeNext,
    PipeState.endAlive, writeOpen, writeEntry, isOpen, notEmpty]

theorem callAlone_succ (entry : PipeAction) (passes : Nat) :
    state.callAlone entry (passes + 1) = (state.callAlone entry passes).bind fun between =>
        pipeNext between (.lockSection state.calls.length) := by
  rw [PipeState.callAlone, PipeState.callAlone, List.replicate_succ',
    ← List.cons_append, Machine.exec_append]
  cases pipeMachine.exec state
      (entry :: List.replicate passes (.lockSection state.calls.length)) with
  | none => rfl
  | some between =>
      rw [Option.bind_some, Option.bind_some, Machine.exec_cons]
      exact Option.bind_fun_some _

theorem writeAlone_succ (passes : Nat) :
    state.writeAlone buf (passes + 1) = (state.writeAlone buf passes).bind fun between =>
        pipeNext between (.lockSection state.calls.length) :=
  callAlone_succ (.write false buf) passes

theorem pipeNext_of_returning {call size : Nat} {progress : WriteProgress} {turn : WriteTurn}
    (found : state.calls[call]? = some (.writing progress))
    (returns : writeSection state.ring state.closed progress = (some size, turn)) :
    pipeNext state (.lockSection call) =
      some { state with
        ring := turn.ring
        calls := state.calls.set call (.writeReturned progress.buf (.ok size))
        appended := state.appended ++ turn.stored.map fun byte => (call, byte) } := by
  simp only [pipeNext, found, returns]

theorem pipeNext_of_continuing {call : Nat} {progress : WriteProgress} {turn : WriteTurn}
    (found : state.calls[call]? = some (.writing progress))
    (continues : writeSection state.ring state.closed progress = (none, turn)) :
    pipeNext state (.lockSection call) =
      some { state with
        ring := turn.ring
        calls := state.calls.set call (.writing turn.progress)
        appended := state.appended ++ turn.stored.map fun byte => (call, byte) } := by
  simp only [pipeNext, found, continues]

theorem getElem?_start (call : PipeCall) :
    (state.start call).calls[state.calls.length]? = some call :=
  List.getElem?_concat_length

theorem getElem?_set_start (call later : PipeCall) :
    ((state.start call).calls.set state.calls.length later)[state.calls.length]? = some later := by
  apply List.getElem?_set_self
  rw [PipeState.start, List.length_append, List.length_singleton]
  exact Nat.lt_succ_self _

theorem writeCompletes_of_lt (readOpen : state.readEnd = true) (writeOpen : state.writeEnd = true)
    (nonempty : buf ≠ []) (less : buf.length < state.ring.availableWrite) :
    state.WriteCompletesAtOnce buf := by
  have entered := writeAlone_zero readOpen writeOpen nonempty
  obtain ⟨turn, returns, -⟩ := writeSection_of_fits state.closed nonempty (Nat.le_of_lt less)
  rw [if_pos less] at returns
  have passed := pipeNext_of_returning (getElem?_start (.writing ⟨buf, 0, Nat.zero_le _⟩)) returns
  have ran := @writeAlone_succ state buf 0
  rw [entered, Option.bind_some, passed] at ran
  refine ⟨1, _, ran, getElem?_set_start _ _, ?_⟩
  intro earlier before between alsoRan
  obtain rfl : earlier = 0 := by omega
  obtain rfl := Option.some.inj (entered.symm.trans alsoRan)
  intro waits
  have noRoom : state.ring.availableWrite = 0 := waits.1
  omega

theorem writeAlone_one_of_full (readOpen : state.readEnd = true) (writeOpen : state.writeEnd = true)
    (nonempty : buf ≠ [])
    (exactly : buf.length = state.ring.availableWrite) :
    ∃ between progress, state.writeAlone buf 1 = some between ∧
      between.calls[state.calls.length]? = some (.writing progress) ∧
      between.WriterWaits := by
  have entered := writeAlone_zero readOpen writeOpen nonempty
  obtain ⟨turn, continues, level⟩ :=
    writeSection_of_fits state.closed nonempty (Nat.le_of_eq exactly)
  rw [if_neg (Nat.not_lt.mpr (Nat.le_of_eq exactly.symm))] at continues
  have passed :=
    pipeNext_of_continuing (getElem?_start (.writing ⟨buf, 0, Nat.zero_le _⟩)) continues
  have ran := @writeAlone_succ state buf 0
  rw [entered, Option.bind_some, passed] at ran
  refine
    ⟨_, turn.progress, ran, getElem?_set_start _ _, ?_, PipeState.closed_of_open readOpen writeOpen⟩
  rw [level]
  omega

theorem not_writeCompletes_of_full
    (readOpen : state.readEnd = true) (writeOpen : state.writeEnd = true)
    (nonempty : buf ≠ [])
    (exactly : buf.length = state.ring.availableWrite) :
    ¬ state.WriteCompletesAtOnce buf := by
  have entered := writeAlone_zero readOpen writeOpen nonempty
  obtain ⟨between, progress, ran, looping, isWaiting⟩ :=
    writeAlone_one_of_full readOpen writeOpen nonempty exactly
  rintro ⟨passes, after, ranToEnd, returned, neverWaits⟩
  match passes with
  | 0 =>
      obtain rfl := Option.some.inj (entered.symm.trans ranToEnd)
      rw [getElem?_start] at returned
      cases returned
  | 1 =>
      obtain rfl := Option.some.inj (ran.symm.trans ranToEnd)
      rw [looping] at returned
      cases returned
  | more + 2 =>
      exact neverWaits 1 (by omega) between ran isWaiting

end Alone

/-- A write that fits, alone at an open pipe, completes at once exactly where
it leaves some room. -/
theorem write_completes_at_once_iff (state : PipeState) (readOpen : state.readEnd = true)
    (writeOpen : state.writeEnd = true) (buf : List UInt8)
    (nonempty : buf ≠ [])
    (fits : buf.length ≤ state.ring.availableWrite) :
    state.WriteCompletesAtOnce buf ↔
      buf.length < state.ring.availableWrite := by
  constructor
  · intro completes
    by_contra notLess
    have exactly : buf.length = state.ring.availableWrite := by omega
    exact not_writeCompletes_of_full readOpen writeOpen nonempty exactly completes
  · exact writeCompletes_of_lt readOpen writeOpen nonempty

/-- One byte into a new pipe. -/
theorem write_completes_at_once_iff_oneByte :
    pipeMachine.Reachable .new ∧ PipeState.new.WriteCompletesAtOnce [7] := by
  refine ⟨Machine.Reachable.start rfl, ?_⟩
  exact (write_completes_at_once_iff .new rfl rfl [7] (by decide) (by decide)).mpr (by decide)

/-- 256 bytes into a new pipe: all are stored, and the call waits. -/
theorem write_waits_when_exactly_full :
    pipeMachine.Reachable .new ∧
      (List.replicate 256 (0 : UInt8)).length = PipeState.new.ring.availableWrite ∧
      ¬ PipeState.new.WriteCompletesAtOnce (List.replicate 256 0) := by
  have exactly :
      (List.replicate 256 (0 : UInt8)).length =
        PipeState.new.ring.availableWrite := by
    rw [List.length_replicate]
    rfl
  have nonempty : List.replicate 256 (0 : UInt8) ≠ [] :=
    List.ne_nil_of_length_pos (by rw [List.length_replicate]; decide)
  exact ⟨Machine.Reachable.start rfl, exactly, not_writeCompletes_of_full rfl rfl nonempty exactly⟩

end Vegar.File

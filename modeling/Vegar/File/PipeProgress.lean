import Vegar.File.PipeFits
import Vegar.File.PipePoll
import Vegar.File.PipeStream
import Vegar.Lib.Roster

/-!
# Progress of the calls on a pipe

A section of a call waits if it leaves everything as it was.  Readers wait
only on an empty pipe and writers only on a full one, so the two never wait
for each other.  Every section that does not wait lowers the work that is
left, so the calls that have begun come to an end of it.
-/

namespace Vegar.File

open Vegar.Lib

namespace PipeState

def Waits (state : PipeState) (call : Nat) : Prop := pipeNext state (.lockSection call) = some state

end PipeState

def PipeCall.work : PipeCall → Nat
  | .reading _ => 1
  | .writing progress => progress.buf.length - progress.writeSize + 1
  | .readReturned _ _ => 0
  | .writeReturned _ _ => 0

def PipeState.work (state : PipeState) : Nat := (state.calls.map PipeCall.work).sum

/-! ## When a section waits -/

section Waiting

variable {state : PipeState} {call : Nat}

private theorem readSection_waits_iff
    {ring : PipeRingBuffer} {closed : Bool} {len : Nat} (wanted : len ≠ 0) :
    (readSection ring closed len).1 = none ↔ ring.contents = [] ∧ closed = false := by
  have isEmpty : ring.contents = [] ↔ ring.availableRead = 0 := by
    rw [← PipeRingBuffer.length_contents, List.length_eq_zero_iff]
  rw [isEmpty]
  simp only [readSection]
  split
  · have noData : ring.availableRead = 0 := by omega
    cases closed <;> simp [noData]
  · have someData : ring.availableRead ≠ 0 := by omega
    simp [someData]

private theorem unchanged_of_set {calls : List PipeCall} {current changed : PipeCall}
    (found : calls[call]? = some current)
    (same : calls.set call changed = calls) :
    changed = current := by
  have inside := (List.getElem?_eq_some_iff.mp found).1
  have here : (calls.set call changed)[call]? = some changed := List.getElem?_set_self inside
  rw [same, found] at here
  exact (Option.some.inj here).symm

theorem waits_iff_of_reading {len : Nat} (isReading : state.calls[call]? = some (.reading len))
    (wanted : len ≠ 0) :
    state.Waits call ↔ state.ring.contents = [] ∧ state.closed = false := by
  rw [← readSection_waits_iff wanted]
  simp only [PipeState.Waits, pipeNext, isReading]
  cases outcome : readSection state.ring state.closed len with
  | mk result ring =>
      cases result with
      | none =>
          rw [readSection_again outcome]
          simp
      | some bytes =>
          simp only [reduceCtorEq, iff_false]
          intro same
          have calls := congrArg PipeState.calls (Option.some.inj same)
          cases unchanged_of_set isReading calls

theorem writeSection_moves {ring : PipeRingBuffer} {closed : Bool} {progress : WriteProgress}
    (room : ring.availableWrite ≠ 0)
    (goesOn : (writeSection ring closed progress).1 = none) :
    progress.writeSize < (writeSection ring closed progress).2.progress.writeSize := by
  have inside := progress.inside
  simp only [writeSection, if_neg room] at goesOn ⊢
  have unfinished : (writeBytes ring.availableWrite ring progress).finished = false := by
    by_contra finished
    rw [Bool.not_eq_false] at finished
    rw [if_pos finished] at goesOn
    cases goesOn
  rw [finished_writeBytes, decide_eq_false_iff_not] at unfinished
  rw [writeSize_writeBytes]
  omega

theorem waits_iff_of_writing {progress : WriteProgress}
    (isWriting : state.calls[call]? = some (.writing progress)) :
    state.Waits call ↔ state.ring.contents.length = ringBufferSize ∧ state.closed = false := by
  have total := state.ring.availableRead_add_availableWrite
  obtain ⟨inside, isCurrent⟩ := List.getElem?_eq_some_iff.mp isWriting
  rw [PipeRingBuffer.length_contents]
  simp only [PipeState.Waits, pipeNext, isWriting]
  constructor
  · intro same
    have calls := congrArg PipeState.calls (Option.some.inj same)
    have unchanged := unchanged_of_set isWriting calls
    split at unchanged
    · next goesOn =>
        have sameProgress := PipeCall.writing.inj unchanged
        have noRoom : state.ring.availableWrite = 0 := by
          by_contra room
          have moved := writeSection_moves room goesOn
          rw [sameProgress] at moved
          exact Nat.lt_irrefl _ moved
        refine ⟨by omega, ?_⟩
        by_contra isClosed
        simp [writeSection, noRoom, isClosed] at goesOn
    · cases unchanged
  · intro stuck
    obtain ⟨isFull, isOpen⟩ := stuck
    have noRoom : state.ring.availableWrite = 0 := by omega
    have outcome :
        writeSection state.ring state.closed progress =
          (none, ⟨state.ring, progress, false, []⟩) := by
      simp [writeSection, noRoom, isOpen]
    simp only [outcome, List.map_nil, List.append_nil]
    rw [← isCurrent, List.set_getElem_self inside]

end Waiting

/-! ## The work that is left -/

section Work

variable {state target : PipeState} {call : Nat}

private theorem work_set {current changed : PipeCall} (found : state.calls[call]? = some current)
    (calls : target.calls = state.calls.set call changed)
    (less : changed.work < current.work) :
    target.work < state.work := by
  have sums := @Roster.sum_map_set_add _ _ _ changed _ PipeCall.work found
  rw [PipeState.work, calls, PipeState.work]
  omega

private theorem work_lt_of_writing {progress : WriteProgress}
    (isWriting : state.calls[call]? = some (.writing progress))
    (moves : ¬ state.Waits call)
    (goesOn : (writeSection state.ring state.closed progress).1 = none) :
    (PipeCall.writing (writeSection state.ring state.closed progress).2.progress).work <
      (PipeCall.writing progress).work := by
  have total := state.ring.availableRead_add_availableWrite
  have room : state.ring.availableWrite ≠ 0 := by
    intro noRoom
    rw [waits_iff_of_writing isWriting, PipeRingBuffer.length_contents] at moves
    apply moves
    refine ⟨by omega, ?_⟩
    by_contra isClosed
    simp [writeSection, noRoom, isClosed] at goesOn
  have moved := writeSection_moves room goesOn
  obtain ⟨-, sameBuf, -, -⟩ := writeSection_spec state.ring state.closed progress
  have inside := (writeSection state.ring state.closed progress).2.progress.inside
  rw [sameBuf] at inside
  simp only [PipeCall.work, sameBuf]
  omega

theorem work_lt_of_section (stepped : pipeNext state (.lockSection call) = some target)
    (moves : ¬ state.Waits call) :
    target.work < state.work := by
  cases found : state.calls[call]? with
  | none =>
      simp [pipeNext, found] at stepped
  | some current =>
      cases current with
      | reading len =>
          rw [PipeState.Waits, stepped, Option.some.injEq] at moves
          simp only [pipeNext, found] at stepped
          cases outcome : readSection state.ring state.closed len with
          | mk result ring =>
              rw [outcome] at stepped
              cases result with
              | none =>
                  obtain rfl := Option.some.inj stepped
                  rw [readSection_again outcome] at moves
                  exact absurd rfl moves
              | some bytes =>
                  obtain rfl := Option.some.inj stepped
                  exact work_set found rfl Nat.one_pos
      | writing progress =>
          simp only [pipeNext, found, Option.some.injEq] at stepped
          subst stepped
          refine work_set found rfl ?_
          split
          · next goesOn => exact work_lt_of_writing found moves goesOn
          · exact Nat.succ_pos _
      | readReturned len result =>
          simp [pipeNext, found] at stepped
      | writeReturned buf result =>
          simp [pipeNext, found] at stepped

theorem exists_section {current : PipeCall} (found : state.calls[call]? = some current)
    (inLoop : (current.isReading || current.isWriting) = true) :
    ∃ target, pipeNext state (.lockSection call) = some target := by
  cases current with
  | reading len =>
      simp only [pipeNext, found]
      split <;> exact ⟨_, rfl⟩
  | writing progress =>
      simp only [pipeNext, found]
      exact ⟨_, rfl⟩
  | readReturned len result => cases inLoop
  | writeReturned buf result => cases inLoop

end Work

/-! ## Settling -/

namespace PipeState

def Settled (state : PipeState) : Prop :=
  (∀ call ∈ state.calls, call.isReading = false ∧ call.isWriting = false) ∨
    ((∀ call ∈ state.calls, call.isWriting = false) ∧
      state.ring.contents = [] ∧ state.writeEnd = true) ∨
    (∀ call ∈ state.calls, call.isReading = false) ∧
      state.ring.contents.length = ringBufferSize ∧ state.readEnd = true

end PipeState

private theorem empty_of_waiting_reader {state : PipeState} (invariant : state.StreamInvariant)
    {call : Nat} {current : PipeCall}
    (found : state.calls[call]? = some current)
    (isReading : current.isReading = true) (waits : state.Waits call) :
    state.ring.contents = [] ∧ state.writeEnd = true := by
  cases current with
  | reading len =>
      obtain ⟨readOpen, wanted, -⟩ := invariant.sound call _ found
      obtain ⟨empty, isOpen⟩ := (waits_iff_of_reading found wanted).mp waits
      rw [PipeState.closed_of_readEnd readOpen] at isOpen
      exact ⟨empty, by simpa using isOpen⟩
  | writing progress => cases isReading
  | readReturned len result => cases isReading
  | writeReturned buf result => cases isReading

private theorem full_of_waiting_writer {state : PipeState} (invariant : state.StreamInvariant)
    {call : Nat} {current : PipeCall}
    (found : state.calls[call]? = some current)
    (isWriting : current.isWriting = true) (waits : state.Waits call) :
    state.ring.contents.length = ringBufferSize ∧ state.readEnd = true := by
  cases current with
  | writing progress =>
      obtain ⟨writeOpen, -⟩ := invariant.sound call _ found
      obtain ⟨full, isOpen⟩ := (waits_iff_of_writing found).mp waits
      rw [PipeState.closed_of_writeEnd writeOpen] at isOpen
      exact ⟨full, by simpa using isOpen⟩
  | reading len => cases isWriting
  | readReturned len result => cases isWriting
  | writeReturned buf result => cases isWriting

theorem settled_of_all_wait {state : PipeState} (reached : pipeMachine.Reachable state)
    (allWait :
      ∀ (call : Nat) (current : PipeCall), state.calls[call]? = some current →
        (current.isReading || current.isWriting) = true → state.Waits call) :
    state.Settled := by
  have invariant := PipeState.StreamInvariant.of_reachable reached
  have ofReader :
      ∀ current ∈ state.calls, current.isReading = true →
        state.ring.contents = [] ∧ state.writeEnd = true := by
    intro current member isReading
    obtain ⟨call, found⟩ := List.mem_iff_getElem?.mp member
    exact empty_of_waiting_reader invariant found isReading
      (allWait call current found (by simp [isReading]))
  have ofWriter :
      ∀ current ∈ state.calls, current.isWriting = true →
        state.ring.contents.length = ringBufferSize ∧ state.readEnd = true := by
    intro current member isWriting
    obtain ⟨call, found⟩ := List.mem_iff_getElem?.mp member
    exact full_of_waiting_writer invariant found isWriting
      (allWait call current found (by simp [isWriting]))
  by_cases someReader : ∃ current ∈ state.calls, current.isReading = true
  · obtain ⟨reader, member, isReading⟩ := someReader
    obtain ⟨empty, writeOpen⟩ := ofReader reader member isReading
    refine Or.inr (Or.inl ⟨?_, empty, writeOpen⟩)
    intro current inCalls
    by_contra isWriting
    rw [Bool.not_eq_false] at isWriting
    have full := (ofWriter current inCalls isWriting).1
    rw [empty] at full
    cases full
  · have noReader : ∀ current ∈ state.calls, current.isReading = false := by
      intro current inCalls
      by_contra isReading
      exact someReader ⟨current, inCalls, by simpa using isReading⟩
    by_cases someWriter : ∃ current ∈ state.calls, current.isWriting = true
    · obtain ⟨writer, member, isWriting⟩ := someWriter
      exact Or.inr (Or.inr ⟨noReader, ofWriter writer member isWriting⟩)
    · refine Or.inl fun current inCalls => ⟨noReader current inCalls, ?_⟩
      by_contra isWriting
      exact someWriter ⟨current, inCalls, by simpa using isWriting⟩

private theorem exists_settling {state : PipeState} (reached : pipeMachine.Reachable state) :
    ∃ (sections : List Nat) (target : PipeState),
      pipeMachine.exec state (sections.map .lockSection) = some target ∧
        sections.length ≤ state.work ∧ target.Settled := by
  induction left : state.work using Nat.strong_induction_on generalizing state with
  | _ left ih =>
      by_cases allWait :
          ∀ (call : Nat) (current : PipeCall),
            state.calls[call]? = some current →
              (current.isReading || current.isWriting) = true → state.Waits call
      · exact ⟨[], state, rfl, Nat.zero_le _, settled_of_all_wait reached allWait⟩
      · push Not at allWait
        obtain ⟨call, current, found, inLoop, moves⟩ := allWait
        obtain ⟨next, stepped⟩ := exists_section found inLoop
        have less := work_lt_of_section stepped moves
        obtain ⟨sections, target, executed, bounded, settled⟩ :=
          ih next.work (by omega) (reached.step (.lockSection call) stepped) rfl
        refine ⟨call :: sections, target, ?_, ?_, settled⟩
        · rw [List.map_cons, Machine.exec_cons]
          exact Option.bind_eq_some_iff.mpr ⟨next, stepped, executed⟩
        · rw [List.length_cons]
          omega

private theorem length_le_work {state target : PipeState} (sections : List Nat)
    (moving :
      pipeMachine.Meets (fun source action => pipeNext source action ≠ some source) state
        (sections.map .lockSection))
    (executed : pipeMachine.exec state (sections.map .lockSection) = some target) :
    sections.length + target.work ≤ state.work := by
  induction sections generalizing state with
  | nil =>
      obtain rfl := Option.some.inj executed
      simp
  | cons call rest ih =>
      rw [List.map_cons] at executed moving
      obtain ⟨next, stepped, restExecuted⟩ := Machine.exec_cons_eq_some.mp executed
      obtain ⟨moves, later⟩ := (Machine.meets_cons_iff stepped).mp moving
      have less := work_lt_of_section stepped moves
      have bounded := ih later restExecuted
      rw [List.length_cons]
      omega

/-- Readers and writers of a pipe never wait for each other, and the calls
that have begun come to an end of their work.  Whatever sections are taken,
those that do not wait are at most as many as the work left in the calls; and
from every reachable state so many sections suffice to reach one in which
nothing is going on, or all calls left are readers of an empty pipe whose
write end is there, or all are writers to a full pipe whose read end is
there. -/
theorem pipe_calls_settle {state : PipeState} (reached : pipeMachine.Reachable state) :
    (∀ (sections : List Nat) (target : PipeState),
        pipeMachine.Meets (fun source action => pipeNext source action ≠ some source)
            state (sections.map .lockSection) →
          pipeMachine.exec state (sections.map .lockSection) = some target →
            sections.length + target.work ≤ state.work) ∧
      ∃ (sections : List Nat) (target : PipeState),
        pipeMachine.exec state (sections.map .lockSection) = some target ∧
          sections.length ≤ state.work ∧ target.Settled :=
  ⟨fun sections _ moving executed => length_le_work sections moving executed,
    exists_settling reached⟩

/-- A write of two bytes and a read of one, both begun, settle. -/
theorem pipe_calls_settle_two :
    ∃ state, pipeMachine.Reachable state ∧ state.work = 4 ∧
      ∃ (sections : List Nat) (target : PipeState),
        pipeMachine.exec state (sections.map .lockSection) = some target ∧
          sections.length ≤ state.work ∧ target.Settled := by
  have started : pipeMachine.Reachable PipeState.new := .start rfl
  have written := started.step (.write false [1, 2]) rfl
  have both := written.step (.read true 1) rfl
  exact ⟨_, both, rfl, (pipe_calls_settle both).2⟩

end Vegar.File

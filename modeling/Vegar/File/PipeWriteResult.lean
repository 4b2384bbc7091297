import Vegar.File.PipeFits
import Vegar.Lib.Roster

/-!
# What a pipe write reports

One call of `Pipe::write` followed through every interleaving with readers,
other writers and the drop of the read end.  The loop has two exits: all bytes
are written, or the buffer is full and the read end is gone.  The second one
reports how much was written so far, which may be nothing.
-/

namespace Vegar.File

open Vegar.Lib

def PipeCall.writeResult? : PipeCall → Option (LinuxResult Nat)
  | .writeReturned _ result => some result
  | _ => none

def SomeBytesOrBroken (buf : List UInt8) (result : LinuxResult Nat) : Prop :=
  (∃ size, result = .ok size ∧ 1 ≤ size ∧ size ≤ buf.length) ∨ result = .error .EPIPE

theorem someBytesOrBroken_ok_iff {buf : List UInt8} {size : Nat} (atMost : size ≤ buf.length) :
    SomeBytesOrBroken buf (.ok size) ↔ size ≠ 0 := by
  constructor
  · rintro (⟨reported, isSize, positive, -⟩ | broken)
    · obtain rfl := Except.ok.inj isSize
      omega
    · cases broken
  · intro someBytes
    exact .inl ⟨size, rfl, Nat.pos_of_ne_zero someBytes, atMost⟩

namespace PipeState

def writeResult? (state : PipeState) (call : Nat) : Option (LinuxResult Nat) :=
  state.calls[call]?.bind PipeCall.writeResult?

def Stranded (state : PipeState) (call : Nat) : Prop :=
  (∃ progress, state.calls[call]? = some (.writing progress) ∧ progress.writeSize = 0) ∧
    state.ring.availableWrite = 0 ∧ state.closed = true

def NotStrandedPass (call : Nat) (state : PipeState) (action : PipeAction) :
    Prop :=
  action = .lockSection call → ¬ state.Stranded call

end PipeState

section Steps

variable {state target : PipeState} {action : PipeAction} {call : Nat}

/-! ## Steps of the others -/

theorem getElem?_start_of_some {current : PipeCall} (found : state.calls[call]? = some current)
    (later : PipeCall) :
    (state.start later).calls[call]? = some current :=
  Roster.getElem?_append_of_some found _

theorem getElem?_of_other {current : PipeCall} (found : state.calls[call]? = some current)
    (stepped : pipeNext state action = some target)
    (other : action ≠ .lockSection call) :
    target.calls[call]? = some current := by
  cases action with
  | read readable len =>
      obtain ⟨-, entered⟩ := Option.ite_none_right_eq_some.mp stepped
      cases checks : readEntry readable len <;> rw [checks] at entered <;>
        obtain rfl := Option.some.inj entered <;>
        exact getElem?_start_of_some found _
  | write readable buf =>
      obtain ⟨-, entered⟩ := Option.ite_none_right_eq_some.mp stepped
      cases checks : writeEntry readable state.closed buf <;>
        rw [checks] at entered <;>
        obtain rfl := Option.some.inj entered <;>
        exact getElem?_start_of_some found _
  | lockSection running =>
      have different : running ≠ call := fun same => other (congrArg PipeAction.lockSection same)
      simp only [pipeNext] at stepped
      split at stepped
      · split at stepped
        · obtain rfl := Option.some.inj stepped
          exact found
        · obtain rfl := Option.some.inj stepped
          exact (List.getElem?_set_ne different).trans found
      · obtain rfl := Option.some.inj stepped
        exact (List.getElem?_set_ne different).trans found
      · cases stepped
  | drop readable =>
      cases readable with
      | false =>
          obtain ⟨-, dropped⟩ := Option.ite_none_right_eq_some.mp stepped
          obtain rfl := Option.some.inj dropped
          exact found
      | true =>
          obtain ⟨-, dropped⟩ := Option.ite_none_right_eq_some.mp stepped
          obtain rfl := Option.some.inj dropped
          exact found

theorem getElem?_of_writeReturned {buf : List UInt8} {result : LinuxResult Nat}
    (found : state.calls[call]? = some (.writeReturned buf result))
    (stepped : pipeNext state action = some target) :
    target.calls[call]? = some (.writeReturned buf result) := by
  apply getElem?_of_other found stepped
  rintro rfl
  simp [pipeNext, found] at stepped

/-! ## Passes of the call -/

theorem writeSection_returns {ring : PipeRingBuffer} {closed : Bool} {progress : WriteProgress}
    {size : Nat} {turn : WriteTurn} (nonempty : progress.buf ≠ [])
    (returns : writeSection ring closed progress = (some size, turn)) :
    size ≤ progress.buf.length ∧
      (size = 0 ↔ progress.writeSize = 0 ∧ ring.availableWrite = 0 ∧ closed = true) := by
  have inside := progress.inside
  have positive : 0 < progress.buf.length := List.length_pos_iff.mpr nonempty
  unfold writeSection at returns
  by_cases noRoom : ring.availableWrite = 0
  · simp only [noRoom, if_true] at returns
    obtain ⟨reported, -⟩ := Prod.mk.inj returns
    obtain ⟨isClosed, isSize⟩ := Option.ite_none_right_eq_some.mp reported
    obtain rfl := Option.some.inj isSize
    exact ⟨inside, by simp [noRoom, isClosed]⟩
  · simp only [if_neg noRoom] at returns
    obtain ⟨reported, -⟩ := Prod.mk.inj returns
    obtain ⟨-, isSize⟩ := Option.ite_none_right_eq_some.mp reported
    have written := Option.some.inj isSize
    rw [writeSize_writeBytes] at written
    refine ⟨by omega, ?_⟩
    constructor
    · intro nothing
      omega
    · rintro ⟨-, full, -⟩
      exact (noRoom full).elim

theorem writeSection_continues {ring : PipeRingBuffer} {closed : Bool} {progress : WriteProgress}
    {turn : WriteTurn}
    (continues : writeSection ring closed progress = (none, turn)) :
    turn.progress.buf = progress.buf ∧ ¬ (ring.availableWrite = 0 ∧ closed = true) := by
  obtain ⟨-, sameBuf, -, -⟩ := writeSection_spec ring closed progress
  rw [continues] at sameBuf
  refine ⟨sameBuf, ?_⟩
  rintro ⟨full, isClosed⟩
  simp [writeSection, full, isClosed] at continues

theorem stranded_iff_of_writing {progress : WriteProgress}
    (found : state.calls[call]? = some (.writing progress)) :
    state.Stranded call ↔
      progress.writeSize = 0 ∧ state.ring.availableWrite = 0 ∧ state.closed = true := by
  simp [PipeState.Stranded, found]

/-! ## Whole runs -/

variable {buf : List UInt8} {final : PipeState}

theorem run_of_writeReturned {result : LinuxResult Nat} (actions : List PipeAction)
    (found : state.calls[call]? = some (.writeReturned buf result))
    (executed : pipeMachine.exec state actions = some final) :
    final.writeResult? call = some result ∧
      pipeMachine.Meets (PipeState.NotStrandedPass call) state actions := by
  induction actions generalizing state with
  | nil =>
      obtain rfl := Option.some.inj executed
      exact ⟨by simp [PipeState.writeResult?, found, PipeCall.writeResult?], trivial⟩
  | cons action rest ih =>
      obtain ⟨target, stepped, restExecuted⟩ := Machine.exec_cons_eq_some.mp executed
      obtain ⟨isResult, meets⟩ := ih (getElem?_of_writeReturned found stepped) restExecuted
      refine ⟨isResult, Machine.Meets.cons ?_ stepped meets⟩
      rintro - ⟨⟨progress, writing, -⟩, -⟩
      rw [found] at writing
      cases writing

theorem run_of_returning (nonempty : buf ≠ []) {rest : List PipeAction}
    {progress : WriteProgress} (sameBuf : progress.buf = buf)
    (found : state.calls[call]? = some (.writing progress))
    {size : Nat} {turn : WriteTurn}
    (outcome : writeSection state.ring state.closed progress = (some size, turn))
    (stepped : pipeNext state (.lockSection call) = some target)
    (executed : pipeMachine.exec target rest = some final) :
    (∀ result, final.writeResult? call = some result → SomeBytesOrBroken buf result) ↔
      pipeMachine.Meets (PipeState.NotStrandedPass call) state (.lockSection call :: rest) := by
  subst sameBuf
  have passed := pipeNext_of_returning found outcome
  obtain rfl := Option.some.inj (passed.symm.trans stepped)
  have inRange := (List.getElem?_eq_some_iff.mp found).1
  obtain ⟨isResult, meetsLater⟩ :=
    run_of_writeReturned rest (List.getElem?_set_self inRange) executed
  obtain ⟨atMost, zero_iff⟩ := writeSection_returns nonempty outcome
  have reports_iff : SomeBytesOrBroken progress.buf (.ok size) ↔ ¬ state.Stranded call := by
    rw [someBytesOrBroken_ok_iff atMost, stranded_iff_of_writing found]
    exact not_congr zero_iff
  rw [Machine.meets_cons_iff stepped, isResult]
  constructor
  · intro sound
    exact ⟨fun _ => reports_iff.mp (sound _ rfl), meetsLater⟩
  · intro meets result isSize
    obtain rfl := Option.some.inj isSize
    exact reports_iff.mpr (meets.1 rfl)

/-- A writer in its loop reports some bytes exactly where no pass of the run
finds it stranded.  Only a pass of the writer itself changes where it
stands. -/
theorem run_of_writing (nonempty : buf ≠ []) (actions : List PipeAction)
    {progress : WriteProgress} (sameBuf : progress.buf = buf)
    (found : state.calls[call]? = some (.writing progress))
    (executed : pipeMachine.exec state actions = some final) :
    (∀ result, final.writeResult? call = some result → SomeBytesOrBroken buf result) ↔
      pipeMachine.Meets (PipeState.NotStrandedPass call) state actions := by
  induction actions generalizing state progress with
  | nil =>
      obtain rfl := Option.some.inj executed
      refine iff_of_true ?_ trivial
      intro result isResult
      simp [PipeState.writeResult?, found, PipeCall.writeResult?] at isResult
  | cons action rest ih =>
      obtain ⟨target, stepped, restExecuted⟩ := Machine.exec_cons_eq_some.mp executed
      by_cases own : action = .lockSection call
      · subst own
        rcases outcome : writeSection state.ring state.closed progress with ⟨size?, turn⟩
        cases size? with
        | none =>
            obtain ⟨stillBuf, notStuck⟩ := writeSection_continues outcome
            have passed := pipeNext_of_continuing found outcome
            obtain rfl := Option.some.inj (passed.symm.trans stepped)
            have inRange := (List.getElem?_eq_some_iff.mp found).1
            have later := ih (stillBuf.trans sameBuf) (List.getElem?_set_self inRange) restExecuted
            rw [Machine.meets_cons_iff stepped, later]
            refine (and_iff_right ?_).symm
            rintro - ⟨-, stuck⟩
            exact notStuck stuck
        | some size =>
            exact run_of_returning nonempty sameBuf found outcome stepped restExecuted
      · have later := ih sameBuf (getElem?_of_other found stepped own) restExecuted
        rw [Machine.meets_cons_iff stepped, later]
        exact (and_iff_right fun same => (own same).elim).symm

end Steps

/-- A write of a non-empty buffer reports some bytes or a broken pipe, under
every interleaving, exactly if no pass of its loop finds the read end dropped
and the buffer full with nothing written yet. -/
theorem write_reports_some_iff
    (state entered final : PipeState) (buf : List UInt8) (nonempty : buf ≠ [])
    (actions : List PipeAction)
    (enters : pipeNext state (.write false buf) = some entered)
    (executed : pipeMachine.exec entered actions = some final) :
    (∀ result, final.writeResult? state.calls.length = some result → SomeBytesOrBroken buf result) ↔
      pipeMachine.Meets (PipeState.NotStrandedPass state.calls.length)
        entered actions := by
  obtain ⟨-, started⟩ := Option.ite_none_right_eq_some.mp enters
  have notEmpty : buf.isEmpty = false := by
    simpa using nonempty
  cases isClosed : state.closed with
  | true =>
      simp only [writeEntry, isClosed] at started
      obtain rfl := Option.some.inj started
      obtain ⟨isResult, meets⟩ := run_of_writeReturned actions (getElem?_start _) executed
      refine iff_of_true ?_ meets
      intro result alsoResult
      obtain rfl := Option.some.inj (isResult.symm.trans alsoResult)
      exact .inr rfl
  | false =>
      simp only [writeEntry, isClosed, notEmpty] at started
      obtain rfl := Option.some.inj started
      exact run_of_writing nonempty actions rfl (getElem?_start _) executed

/-- One byte into a new pipe, in one pass. -/
theorem write_reports_some_iff_oneByte :
    ∃ entered final, pipeNext .new (.write false [7]) = some entered ∧
      pipeMachine.exec entered [.lockSection 0] = some final ∧
      final.writeResult? 0 = some (.ok 1) ∧
      ∀ result, final.writeResult? 0 = some result →
        SomeBytesOrBroken [7] result := by
  refine ⟨_, _, rfl, rfl, rfl, ?_⟩
  apply (write_reports_some_iff .new _ _ [7] (by decide) [.lockSection 0] rfl rfl).mpr
  refine ⟨?_, fun _ _ => trivial⟩
  rintro - ⟨-, full, -⟩
  revert full
  decide

/-- A pipe is filled, a second writer enters, and the read end is dropped: the
second writer reports zero bytes. -/
theorem write_reports_zero_when_stranded :
    ((pipeMachine.exec .new
          [.write false (List.replicate 256 0), .lockSection 0,
            .write false [7], .lockSection 1, .drop true,
            .lockSection 1]).bind fun final => final.writeResult? 1) =
        some (.ok 0) ∧
      ¬ SomeBytesOrBroken [7] (.ok 0) := by
  constructor
  · decide +kernel
  · rw [someBytesOrBroken_ok_iff (Nat.zero_le _)]
    exact not_not.mpr rfl

end Vegar.File

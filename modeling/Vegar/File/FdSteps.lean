import Vegar.File.FdCalls
import Vegar.Lib.Atomic

/-!
# The steps of descriptor calls

`sys_dup`, `sys_dup2`, `sys_pipe2` and `sys_close` by threads that share one
table.  A step is a call's taking of the lock of the table, as in
`Vegar.File.FdTable`.  The pipe of a call is named by the number of the call.
-/

namespace Vegar.File

open Vegar.Lib
open FdWorld (fdIndex fdIndex_ofNat)

inductive FdCall where
  | dup (oldFd : BitVec 32)
  | dup2 (oldFd newFd : BitVec 32)
  | pipe2 (fds : LinuxResult Unit)
  | close (fd : BitVec 32)
  deriving DecidableEq

/-- What a call returns; `sys_pipe2` stores the two descriptors in the user's
array. -/
inductive FdValue where
  | fd (number : BitVec 32)
  | ends (readFd writeFd : BitVec 32)
  | done
  deriving DecidableEq, Repr

abbrev FdOutcome := Except (Fault LinuxError) FdValue

inductive FdPhase where
  | entered
  /-- `dup_fd` has the file. -/
  | holding (ref : FileRef)
  /-- `sys_pipe2` has added the read end. -/
  | half (readFd : BitVec 32)
  /-- `sys_pipe2` could not add the write end. -/
  | undoing (readFd : BitVec 32) (error : LinuxError)
  | returned (outcome : FdOutcome)
  deriving DecidableEq

namespace FdPhase

def isReturned : FdPhase → Bool
  | returned _ => true
  | _ => false

/-- The descriptor of the read end, as long as `sys_pipe2` stands between its
locks. -/
def readEnd : FdPhase → Option (BitVec 32)
  | half readFd => some readFd
  | undoing readFd _ => some readFd
  | _ => none

def settled : FdPhase → Option FdPhase
  | undoing _ error => some (returned (.error (.err error)))
  | returned outcome => some (returned outcome)
  | _ => none

end FdPhase

/-! ## The steps -/

section Steps

variable (allocator : IdAllocator FileRef axFileLimit)

/-- `add_file_like`. -/
def addSlot (slots : FdSlots) (ref : FileRef) : LinuxResult (BitVec 32) × FdSlots :=
  match allocator.pick slots with
  | some id => (.ok (.ofNat 32 id), slots.setSlot id (some ref))
  | none => (.error .EMFILE, slots)

/-- `close_file_like`. -/
def closeSlot (slots : FdSlots) (fd : BitVec 32) :
    LinuxResult Unit × FdSlots :=
  match slots.get (fdIndex fd) with
  | some _ => (.ok (), slots.setSlot (fdIndex fd) none)
  | none => (.error .EBADF, slots)

/-- `sys_dup2`, under one lock. -/
def dup2Slot (slots : FdSlots) (oldFd newFd : BitVec 32) :
    FdOutcome × FdSlots :=
  match slots.get (fdIndex oldFd) with
  | none => (.error (.err .EBADF), slots)
  | some ref =>
      if oldFd = newFd then (.ok (.fd newFd), slots)
      else
        let cleared := (closeSlot slots newFd).2
        match cleared.addAt (fdIndex newFd) ref with
        | some added => (.ok (.fd newFd), added)
        | none => (.error .panicked, cleared)

/-- The first lock of `dup_fd`. -/
def dupLook (oldFd : BitVec 32) (slots : FdSlots) : FdPhase × FdSlots :=
  match slots.get (fdIndex oldFd) with
  | none => (.returned (.error (.err .EBADF)), slots)
  | some ref => (.holding ref, slots)

/-- The second lock of `dup_fd`. -/
def dupAdd (ref : FileRef) (slots : FdSlots) : FdPhase × FdSlots :=
  match addSlot allocator slots ref with
  | (.ok newFd, added) => (.returned (.ok (.fd newFd)), added)
  | (.error error, same) => (.returned (.error (.err error)), same)

/-- The first lock of `sys_pipe2`. -/
def pipeAddRead (pipe : Nat) (fds : LinuxResult Unit) (slots : FdSlots) :
    FdPhase × FdSlots :=
  match fds with
  | .error error => (.returned (.error (.err error)), slots)
  | .ok () =>
      match addSlot allocator slots (.pipeEnd pipe true) with
      | (.ok readFd, added) => (.half readFd, added)
      | (.error error, same) => (.returned (.error (.err error)), same)

/-- The second lock of `sys_pipe2`. -/
def pipeAddWrite (pipe : Nat) (readFd : BitVec 32) (slots : FdSlots) :
    FdPhase × FdSlots :=
  match addSlot allocator slots (.pipeEnd pipe false) with
  | (.ok writeFd, added) => (.returned (.ok (.ends readFd writeFd)), added)
  | (.error error, same) => (.undoing readFd error, same)

/-- The third lock of `sys_pipe2`: `close_file_like(read_fd).unwrap()`. -/
def pipeUndo (readFd : BitVec 32) (error : LinuxError) (slots : FdSlots) :
    FdPhase × FdSlots :=
  match closeSlot slots readFd with
  | (.ok (), closed) => (.returned (.error (.err error)), closed)
  | (.error _, same) => (.returned (.error .panicked), same)

/-- `sys_close`. -/
def closeStep (fd : BitVec 32) (slots : FdSlots) : FdPhase × FdSlots :=
  match closeSlot slots fd with
  | (.ok (), closed) => (.returned (.ok .done), closed)
  | (.error error, same) => (.returned (.error (.err error)), same)

/-- One step of a call; `pipe` names the pipe it makes. -/
def fdStep (pipe : Nat) (call : FdCall) (phase : FdPhase)
    (slots : FdSlots) : Option (FdPhase × FdSlots) :=
  match call, phase with
  | .dup oldFd, .entered => some (dupLook oldFd slots)
  | .dup _, .holding ref => some (dupAdd allocator ref slots)
  | .dup2 oldFd newFd, .entered =>
      let result := dup2Slot slots oldFd newFd
      some (.returned result.1, result.2)
  | .pipe2 fds, .entered => some (pipeAddRead allocator pipe fds slots)
  | .pipe2 _, .half readFd =>
      some (pipeAddWrite allocator pipe readFd slots)
  | .pipe2 _, .undoing readFd error => some (pipeUndo readFd error slots)
  | .close fd, .entered => some (closeStep fd slots)
  | _, _ => none

/-- The calls of threads that share one table; pipes made before have numbers
below `firstPipe`. -/
def fdProtocol (firstPipe : Nat) : Protocol FdCall FdPhase FdSlots where
  enter := .entered
  step index call phase slots := fdStep allocator (firstPipe + index) call phase slots
  returned := FdPhase.isReturned
  settled := FdPhase.settled
  enter_open := rfl
  settled_of_returned phase isReturned := by
    cases phase with
    | returned outcome => rfl
    | _ => cases isReturned

end Steps

/-! ## What the steps do to the slots -/

section Slots

variable {allocator : IdAllocator FileRef axFileLimit} {slots : FdSlots} {ref : FileRef}

theorem addSlot_of_pick {id : Nat} (picked : allocator.pick slots = some id) :
    addSlot allocator slots ref = (.ok (.ofNat 32 id), slots.setSlot id (some ref)) := by
  rw [addSlot, picked]

theorem addSlot_of_pick_none (picked : allocator.pick slots = none) :
    addSlot allocator slots ref = (.error .EMFILE, slots) := by
  rw [addSlot, picked]

theorem addSlot_eq_error {same : FdSlots} {error : LinuxError}
    (failed : addSlot allocator slots ref = (.error error, same)) :
    same = slots := by
  unfold addSlot at failed
  split at failed
  · cases (Prod.mk.inj failed).1
  · exact (Prod.mk.inj failed).2.symm

theorem get_closeSlot (fd : BitVec 32) (asked : Nat) :
    (closeSlot slots fd).2.get asked =
      if fdIndex fd = asked then none else slots.get asked := by
  cases found : slots.get (fdIndex fd) with
  | some ref =>
      simp only [closeSlot, found]
      exact slots.get_setSlot_none (fdIndex fd) asked
  | none =>
      simp only [closeSlot, found]
      split
      · next same => rw [← same, found]
      · rfl

theorem dup2Slot_agree {one other : FdSlots} {oldFd newFd : BitVec 32}
    (sameOld : one.get (fdIndex oldFd) = other.get (fdIndex oldFd)) :
    (dup2Slot one oldFd newFd).1 = (dup2Slot other oldFd newFd).1 ∧
      ∀ id, one.get id = other.get id →
        (dup2Slot one oldFd newFd).2.get id = (dup2Slot other oldFd newFd).2.get id := by
  unfold dup2Slot
  rw [sameOld]
  cases other.get (fdIndex oldFd) with
  | none => exact ⟨rfl, fun _ same => same⟩
  | some ref =>
      by_cases same : oldFd = newFd
      · simp only [if_pos same]
        exact ⟨trivial, fun _ same => same⟩
      · have cleared (table : FdSlots) : (closeSlot table newFd).2.get (fdIndex newFd) = none := by
          rw [get_closeSlot, if_pos rfl]
        simp only [if_neg same, FlattenObjects.addAt, cleared, and_true]
        by_cases inside : fdIndex newFd < axFileLimit
        · simp only [if_pos inside]
          refine ⟨trivial, fun id sameId => ?_⟩
          rw [FlattenObjects.get_setSlot _ inside,
            FlattenObjects.get_setSlot _ inside, get_closeSlot,
            get_closeSlot, sameId]
        · simp only [if_neg inside]
          refine ⟨trivial, fun id sameId => ?_⟩
          rw [get_closeSlot, get_closeSlot, sameId]

theorem get_dup2Slot_of_ne {oldFd newFd : BitVec 32} {id : Nat} (different : fdIndex newFd ≠ id) :
    (dup2Slot slots oldFd newFd).2.get id = slots.get id := by
  unfold dup2Slot
  split
  · rfl
  · split
    · rfl
    · have kept : (closeSlot slots newFd).2.get id = slots.get id := by
        rw [get_closeSlot, if_neg different]
      dsimp only
      split
      · next added =>
          obtain ⟨⟨inside, -⟩, isAdded⟩ := Option.ite_none_right_eq_some.mp added
          obtain rfl := Option.some.inj isAdded
          rw [FlattenObjects.get_setSlot _ inside, if_neg different, kept]
      · exact kept

theorem closeStep_eq (fd : BitVec 32) (slots : FdSlots) :
    closeStep fd slots =
      (.returned (if (slots.get (fdIndex fd)).isSome then .ok .done
        else .error (.err .EBADF)), (closeSlot slots fd).2) := by
  unfold closeStep closeSlot
  cases slots.get (fdIndex fd) <;> rfl

end Slots

/-! ## The calls of one thread -/

section World

variable {allocator : IdAllocator FileRef axFileLimit} {world : FdWorld} {table : Nat}

theorem addFileLike_eq_addSlot (known : table < world.tables.length) (ref : FileRef) :
    (world.addFileLike allocator table ref).1 = (addSlot allocator (world.tableAt table) ref).1 ∧
      (world.addFileLike allocator table ref).2.tableAt table =
        (addSlot allocator (world.tableAt table) ref).2 := by
  cases picked : allocator.pick (world.tableAt table) with
  | some id =>
      simp only [FdWorld.addFileLike, addSlot, picked, true_and]
      exact FdWorld.tableAt_setSlot_self known id (some ref)
  | none =>
      simp only [FdWorld.addFileLike, addSlot, picked, true_and]
      exact FdWorld.tableAt_release world ref table

theorem closeFileLike_eq_closeSlot (known : table < world.tables.length) (fd : BitVec 32) :
    (world.closeFileLike table fd).1 = (closeSlot (world.tableAt table) fd).1 ∧
      (world.closeFileLike table fd).2.tableAt table = (closeSlot (world.tableAt table) fd).2 := by
  cases found : (world.tableAt table).get (fdIndex fd) with
  | some ref =>
      simp only [FdWorld.closeFileLike, closeSlot, found, true_and]
      rw [FdWorld.tableAt_release, FdWorld.tableAt_setSlot_self known]
  | none =>
      simp only [FdWorld.closeFileLike, closeSlot, found, and_self]

def descriptorOutcome : LinuxResult (BitVec 32) → FdOutcome
  | .ok fd => .ok (.fd fd)
  | .error error => .error (.err error)

theorem dupAdd_eq (ref : FileRef) (slots : FdSlots) :
    dupAdd allocator ref slots =
      (.returned (descriptorOutcome (addSlot allocator slots ref).1),
        (addSlot allocator slots ref).2) := by
  unfold dupAdd
  split
  · next added =>
      rw [added]
      rfl
  · next failed =>
      rw [failed]
      rfl

theorem dupFd_runs (known : table < world.tables.length) (firstPipe index : Nat)
    (oldFd : BitVec 32) :
    (fdProtocol allocator firstPipe).Runs index (.dup oldFd) .entered (world.tableAt table)
      (.returned (descriptorOutcome (world.dupFd allocator table oldFd).1))
      ((world.dupFd allocator table oldFd).2.tableAt table) := by
  have looked :
      fdStep allocator (firstPipe + index) (.dup oldFd) .entered (world.tableAt table) =
        some (dupLook oldFd (world.tableAt table)) :=
    rfl
  cases found : (world.tableAt table).get (fdIndex oldFd) with
  | none =>
      rw [dupLook, found] at looked
      simp only [FdWorld.dupFd, FdWorld.getFileLike, found]
      exact .tail (.refl _ _) looked
  | some ref =>
      rw [dupLook, found] at looked
      simp only [FdWorld.dupFd, FdWorld.getFileLike, found]
      obtain ⟨sameResult, sameTable⟩ :=
        @addFileLike_eq_addSlot allocator (world.retain ref) table known ref
      rw [sameResult, sameTable]
      have added :
          fdStep allocator (firstPipe + index) (.dup oldFd) (.holding ref) (world.tableAt table) =
            some (dupAdd allocator ref (world.tableAt table)) :=
        rfl
      rw [dupAdd_eq] at added
      exact .tail (.tail (.refl _ _) looked) added

theorem closeFileLike_runs (known : table < world.tables.length) (firstPipe index : Nat)
    (fd : BitVec 32) :
    ∃ outcome : FdOutcome,
      (fdProtocol allocator firstPipe).Runs index (.close fd) .entered
        (world.tableAt table) (.returned outcome)
        ((world.closeFileLike table fd).2.tableAt table) ∧
      outcome =
        match (world.closeFileLike table fd).1 with
        | .ok () => .ok .done
        | .error error => .error (.err error) := by
  obtain ⟨sameResult, sameTable⟩ := closeFileLike_eq_closeSlot known fd
  have stepped :
      fdStep allocator (firstPipe + index) (.close fd) .entered (world.tableAt table) =
        some (closeStep fd (world.tableAt table)) :=
    rfl
  refine ⟨_, ?_, rfl⟩
  rw [sameResult, sameTable]
  unfold closeStep at stepped
  split at stepped
  · next closed =>
      rw [closed]
      exact .tail (.refl _ _) stepped
  · next failed =>
      rw [failed]
      exact .tail (.refl _ _) stepped

theorem addFileLike_tables_length (ref : FileRef) :
    (world.addFileLike allocator table ref).2.tables.length =
      world.tables.length := by
  unfold FdWorld.addFileLike
  split
  · exact FdWorld.tables_length_setSlot _ _ _ _
  · rw [FdWorld.release_tables]

theorem addSlot_of_addFileLike {ref : FileRef} {outcome : LinuxResult (BitVec 32)} {after : FdWorld}
    (known : table < world.tables.length)
    (added : world.addFileLike allocator table ref = (outcome, after)) :
    addSlot allocator (world.tableAt table) ref = (outcome, after.tableAt table) ∧
      table < after.tables.length := by
  obtain ⟨sameResult, sameTable⟩ := @addFileLike_eq_addSlot allocator world table known ref
  have sameLength := @addFileLike_tables_length allocator world table ref
  rw [added] at sameResult sameTable sameLength
  constructor
  · exact Prod.ext sameResult.symm sameTable.symm
  · rw [sameLength]
    exact known

theorem closeSlot_of_closeFileLike {fd : BitVec 32} {outcome : LinuxResult Unit} {after : FdWorld}
    (known : table < world.tables.length)
    (closed : world.closeFileLike table fd = (outcome, after)) :
    closeSlot (world.tableAt table) fd = (outcome, after.tableAt table) := by
  obtain ⟨sameResult, sameTable⟩ := closeFileLike_eq_closeSlot known fd
  rw [closed] at sameResult sameTable
  exact Prod.ext sameResult.symm sameTable.symm

theorem closeFileLike_tables_length (fd : BitVec 32) :
    (world.closeFileLike table fd).2.tables.length =
      world.tables.length := by
  unfold FdWorld.closeFileLike
  split
  · rw [FdWorld.release_tables, FdWorld.tables_length_setSlot]
  · rfl

theorem dup2Slot_eq (known : table < world.tables.length) (oldFd newFd : BitVec 32) :
    dup2Slot (world.tableAt table) oldFd newFd =
      ((world.sysDup2 table oldFd newFd).1.map .fd,
        (world.sysDup2 table oldFd newFd).2.tableAt table) := by
  cases found : (world.tableAt table).get (fdIndex oldFd) with
  | none =>
      simp only [dup2Slot, FdWorld.sysDup2, FdWorld.getFileLike, found]
      rfl
  | some ref =>
      simp only [dup2Slot, FdWorld.sysDup2, FdWorld.getFileLike, found]
      by_cases same : oldFd = newFd
      · rw [if_pos same, if_pos same, FdWorld.tableAt_release]
        rfl
      · rw [if_neg same, if_neg same]
        obtain ⟨-, sameTable⟩ := @closeFileLike_eq_closeSlot (world.retain ref) table known newFd
        have stillKnown :
            table < ((world.retain ref).closeFileLike table newFd).2.tables.length := by
          rw [closeFileLike_tables_length]
          exact known
        have cleared :
            (closeSlot (world.tableAt table) newFd).2 =
              ((world.retain ref).closeFileLike table newFd).2.tableAt
                table :=
          sameTable.symm
        rw [cleared]
        generalize ((world.retain ref).closeFileLike table newFd).2 = clearedWorld at stillKnown
        by_cases free :
            fdIndex newFd < axFileLimit ∧ (clearedWorld.tableAt table).get (fdIndex newFd) = none
        · simp only [FlattenObjects.addAt, FdWorld.addAt, if_pos free]
          rw [FdWorld.tableAt_setSlot_self stillKnown]
          rfl
        · simp only [FlattenObjects.addAt, FdWorld.addAt, if_neg free]
          rfl

theorem sysDup2_runs (known : table < world.tables.length) (firstPipe index : Nat)
    (oldFd newFd : BitVec 32) :
    (fdProtocol allocator firstPipe).Runs index (.dup2 oldFd newFd) .entered (world.tableAt table)
      (.returned ((world.sysDup2 table oldFd newFd).1.map .fd))
      ((world.sysDup2 table oldFd newFd).2.tableAt table) := by
  have stepped :
      fdStep allocator (firstPipe + index) (.dup2 oldFd newFd) .entered (world.tableAt table) =
        some
          (.returned (dup2Slot (world.tableAt table) oldFd newFd).1,
            (dup2Slot (world.tableAt table) oldFd newFd).2) :=
    rfl
  rw [dup2Slot_eq known] at stepped
  exact .tail (.refl _ _) stepped

theorem sysPipe2_runs (known : table < world.tables.length) {firstPipe index : Nat}
    (named : firstPipe + index = world.pipes) (fds : LinuxResult Unit) :
    ∃ outcome : FdOutcome,
      (fdProtocol allocator firstPipe).Runs index (.pipe2 fds) .entered
        (world.tableAt table) (.returned outcome)
        ((world.sysPipe2 allocator table fds).2.tableAt table) ∧
      outcome.map (fun _ => 0) = (world.sysPipe2 allocator table fds).1 := by
  have first :
      fdStep allocator (firstPipe + index) (.pipe2 fds) .entered (world.tableAt table) =
        some (pipeAddRead allocator world.pipes fds (world.tableAt table)) := by
    rw [← named]
    rfl
  have second (readFd : BitVec 32) (slots : FdSlots) :
      fdStep allocator (firstPipe + index) (.pipe2 fds) (.half readFd) slots =
        some (pipeAddWrite allocator world.pipes readFd slots) := by
    rw [← named]
    rfl
  have third (readFd : BitVec 32) (error : LinuxError) (slots : FdSlots) :
      fdStep allocator (firstPipe + index) (.pipe2 fds) (.undoing readFd error) slots =
        some (pipeUndo readFd error slots) :=
    rfl
  cases fds with
  | error error => exact ⟨_, .tail (.refl _ _) first, rfl⟩
  | ok accessible =>
      cases readAdded :
          (world.newPipe.newArc (.pipeEnd world.pipes true)).addFileLike
            allocator table (.pipeEnd world.pipes true) with
      | mk readOutcome afterRead =>
      obtain ⟨addedRead, readKnown⟩ :
          addSlot allocator (world.tableAt table) (.pipeEnd world.pipes true) =
            (readOutcome, afterRead.tableAt table) ∧
          table < afterRead.tables.length :=
        @addSlot_of_addFileLike allocator
          (world.newPipe.newArc (.pipeEnd world.pipes true)) table _ _ _
          known readAdded
      simp only [pipeAddRead, addedRead] at first
      cases readOutcome with
      | error error =>
          have whole :
              world.sysPipe2 allocator table (.ok accessible) =
                (.error (.err error), afterRead.dropEnd world.pipes) := by
            simp only [FdWorld.sysPipe2, readAdded]
          rw [whole]
          exact ⟨_, .tail (.refl _ _) first, rfl⟩
      | ok readFd =>
      cases writeAdded :
          (afterRead.newArc (.pipeEnd world.pipes false)).addFileLike
            allocator table (.pipeEnd world.pipes false) with
      | mk writeOutcome afterWrite =>
      obtain ⟨addedWrite, writeKnown⟩ :
          addSlot allocator (afterRead.tableAt table) (.pipeEnd world.pipes false) =
            (writeOutcome, afterWrite.tableAt table) ∧
          table < afterWrite.tables.length :=
        @addSlot_of_addFileLike allocator
          (afterRead.newArc (.pipeEnd world.pipes false)) table _ _ _
          readKnown writeAdded
      have secondStep := second readFd (afterRead.tableAt table)
      simp only [pipeAddWrite, addedWrite] at secondStep
      cases writeOutcome with
      | ok writeFd =>
          have whole : world.sysPipe2 allocator table (.ok accessible) = (.ok 0, afterWrite) := by
            simp only [FdWorld.sysPipe2, readAdded, writeAdded]
          rw [whole]
          exact ⟨_, .tail (.tail (.refl _ _) first) secondStep, rfl⟩
      | error error =>
      cases closed : afterWrite.closeFileLike table readFd with
      | mk closeOutcome undone =>
      have closedSlot := closeSlot_of_closeFileLike writeKnown closed
      have thirdStep := third readFd error (afterWrite.tableAt table)
      simp only [pipeUndo, closedSlot] at thirdStep
      have twoSteps :
          (fdProtocol allocator firstPipe).Runs index
            (.pipe2 (.ok accessible)) .entered (world.tableAt table)
            (.undoing readFd error) (afterWrite.tableAt table) :=
        .tail (.tail (.refl _ _) first) secondStep
      cases closeOutcome with
      | ok closedEnd =>
          have whole :
              world.sysPipe2 allocator table (.ok accessible) = (.error (.err error), undone) := by
            simp only [FdWorld.sysPipe2, readAdded, writeAdded, closed]
          rw [whole]
          exact ⟨_, .tail twoSteps thirdStep, rfl⟩
      | error refusal =>
          have whole :
              world.sysPipe2 allocator table (.ok accessible) = (.error .panicked, undone) := by
            simp only [FdWorld.sysPipe2, readAdded, writeAdded, closed]
          rw [whole]
          exact ⟨_, .tail twoSteps thirdStep, rfl⟩

end World

end Vegar.File

import Vegar.File.FdSteps

/-!
# Unfinished pipes

While a `sys_pipe2` stands between its locks, its read end is in a table that
other threads use.  Seen without such ends, the table changes only when a call
is decided, and then as the call alone would change it, provided the ends make
no difference to the call.
-/

namespace Vegar.File

open Vegar.Lib
open FdWorld (fdIndex fdIndex_ofNat)

abbrev FdCallState := AtomicState FdCall FdPhase FdSlots

namespace FdCallState

/-- The numbers of the read ends of the `sys_pipe2` calls that stand between
their locks. -/
def unfinished (state : FdCallState) : List Nat :=
  state.calls.filterMap fun record => record.phase.readEnd.map fdIndex

def finished (state : FdCallState) : FdSlots :=
  state.unfinished.foldl (fun slots id => slots.setSlot id none) state.object

def moved (state : FdCallState) (index : Nat) (phase : FdPhase) (slots : FdSlots) : FdCallState :=
  { state with
    object := slots
    calls := state.calls.modify index fun changed =>
      { changed with phase := phase }
    order :=
      if phase.isReturned then state.order ++ [index] else state.order }

end FdCallState

/-- At the step that decides a call, unfinished pipes make no difference to
it.  `sys_close` and `sys_dup2` do not name their ends.  `dup_fd` adds a file
that its descriptor still names, under the number it would get without them.
`sys_pipe2` finds no room for its first end only if there is none without them,
and when its second end is added, both get the numbers they would get without
them. -/
def Decides (allocator : IdAllocator FileRef axFileLimit)
    (state : FdCallState) : FdCall → FdPhase → Prop
  | .dup oldFd, .holding ref =>
      state.finished.get (fdIndex oldFd) = some ref ∧
        allocator.pick state.finished = allocator.pick state.object
  | .dup2 oldFd newFd, .entered =>
      fdIndex oldFd ∉ state.unfinished ∧ fdIndex newFd ∉ state.unfinished
  | .pipe2 (.ok ()), .entered =>
      allocator.pick state.object = none → allocator.pick state.finished = none
  | .pipe2 _, .half readFd =>
      allocator.pick state.finished = some (fdIndex readFd) ∧
        allocator.pick
            (state.finished.setSlot (fdIndex readFd) (state.object.get (fdIndex readFd))) =
          allocator.pick state.object
  | .close fd, .entered => fdIndex fd ∉ state.unfinished
  | _, _ => True

/-! ## The table without unfinished ends -/

def EndOf (phase : FdPhase) (id : Nat) : Prop :=
  ∃ readFd, phase.readEnd = some readFd ∧ fdIndex readFd = id

def OfOther (state : FdCallState) (index id : Nat) : Prop :=
  ∃ (other : Nat) (record : CallRecord FdCall FdPhase),
    other ≠ index ∧ state.calls[other]? = some record ∧ EndOf record.phase id

section Unfinished

variable {state : FdCallState} {index id : Nat}
  {record : CallRecord FdCall FdPhase} {phase : FdPhase} {slots : FdSlots}

theorem not_endOf (noEnd : phase.readEnd = none) : ¬ EndOf phase id := by
  rintro ⟨readFd, isEnd, -⟩
  rw [noEnd] at isEnd
  cases isEnd

theorem endOf_iff {readFd : BitVec 32} (isEnd : phase.readEnd = some readFd) :
    EndOf phase id ↔ fdIndex readFd = id := by
  rw [EndOf, isEnd]
  simp only [Option.some.injEq, exists_eq_left']

theorem get_foldl_clear (ids : List Nat) (slots : FdSlots) (asked : Nat) :
    (ids.foldl (fun slots id => slots.setSlot id none) slots).get asked =
      if asked ∈ ids then none else slots.get asked := by
  induction ids generalizing slots with
  | nil => simp
  | cons id rest ih =>
      rw [List.foldl_cons, ih, FlattenObjects.get_setSlot_none]
      by_cases inRest : asked ∈ rest
      · rw [if_pos inRest, if_pos (List.mem_cons_of_mem id inRest)]
      · by_cases same : id = asked
        · rw [if_neg inRest, if_pos same, if_pos (by simp [same])]
        · rw [if_neg inRest, if_neg same, if_neg (by simp [inRest, Ne.symm same])]

theorem get_finished (id : Nat) :
    state.finished.get id =
      if id ∈ state.unfinished then none else state.object.get id :=
  get_foldl_clear _ _ _

theorem get_finished_of_notMem (notIn : id ∉ state.unfinished) :
    state.finished.get id = state.object.get id := by
  rw [get_finished, if_neg notIn]

theorem mem_unfinished_iff :
    id ∈ state.unfinished ↔
      ∃ (index : Nat) (record : CallRecord FdCall FdPhase),
        state.calls[index]? = some record ∧ EndOf record.phase id := by
  simp only [FdCallState.unfinished, List.mem_filterMap, Option.map_eq_some_iff]
  constructor
  · rintro ⟨record, member, isEnd⟩
    obtain ⟨index, found⟩ := List.mem_iff_getElem?.mp member
    exact ⟨index, record, found, isEnd⟩
  · rintro ⟨index, record, found, isEnd⟩
    exact ⟨record, List.mem_of_getElem? found, isEnd⟩

theorem OfOther.mem (isOther : OfOther state index id) :
    id ∈ state.unfinished := by
  obtain ⟨other, otherRecord, -, rest⟩ := isOther
  exact mem_unfinished_iff.mpr ⟨other, otherRecord, rest⟩

theorem mem_unfinished_iff_of_found (found : state.calls[index]? = some record) :
    id ∈ state.unfinished ↔
      OfOther state index id ∨ EndOf record.phase id := by
  constructor
  · intro member
    obtain ⟨other, otherRecord, otherFound, isEnd⟩ := mem_unfinished_iff.mp member
    by_cases same : other = index
    · subst same
      obtain rfl := Option.some.inj (found.symm.trans otherFound)
      exact Or.inr isEnd
    · exact Or.inl ⟨other, otherRecord, same, otherFound, isEnd⟩
  · rintro (isOther | isEnd)
    · exact isOther.mem
    · exact mem_unfinished_iff.mpr ⟨index, record, found, isEnd⟩

theorem ofOther_moved :
    OfOther (state.moved index phase slots) index id ↔
      OfOther state index id := by
  have same {other : Nat} (different : other ≠ index) :
      (state.moved index phase slots).calls[other]? = state.calls[other]? :=
    List.getElem?_modify_ne _ _ (Ne.symm different)
  constructor
  · rintro ⟨other, otherRecord, different, otherFound, isEnd⟩
    exact ⟨other, otherRecord, different, (same different).symm.trans otherFound, isEnd⟩
  · rintro ⟨other, otherRecord, different, otherFound, isEnd⟩
    exact ⟨other, otherRecord, different, (same different).trans otherFound, isEnd⟩

theorem finished_moved_eq (found : state.calls[index]? = some record) {table : FdSlots}
    (cleared : ∀ id, OfOther state index id ∨ EndOf phase id → table.get id = none)
    (same : ∀ id, ¬ OfOther state index id → ¬ EndOf phase id → table.get id = slots.get id) :
    (state.moved index phase slots).finished = table := by
  have movedFound :
      (state.moved index phase slots).calls[index]? =
        some { record with phase := phase } :=
    Roster.getElem?_modify_of_some found _
  apply FlattenObjects.ext_get
  intro id
  have isUnfinished := @mem_unfinished_iff_of_found _ _ id _ movedFound
  rw [ofOther_moved] at isUnfinished
  rw [get_finished]
  by_cases unfinished : OfOther state index id ∨ EndOf phase id
  · rw [if_pos (isUnfinished.mpr unfinished), cleared id unfinished]
  · rw [if_neg (mt isUnfinished.mp unfinished)]
    rw [not_or] at unfinished
    exact (same id unfinished.1 unfinished.2).symm

theorem finished_moved_same (phase : FdPhase) (found : state.calls[index]? = some record)
    (sameEnd : phase.readEnd = record.phase.readEnd) :
    (state.moved index phase state.object).finished = state.finished := by
  have isUnfinished (id : Nat) :
      id ∈ state.unfinished ↔ OfOther state index id ∨ EndOf phase id := by
    rw [mem_unfinished_iff_of_found found, EndOf, EndOf, sameEnd]
  apply finished_moved_eq found
  · intro id unfinished
    rw [get_finished, if_pos ((isUnfinished id).mpr unfinished)]
  · intro id notOther notOwn
    apply get_finished_of_notMem
    intro member
    exact ((isUnfinished id).mp member).elim notOther notOwn

theorem finished_moved_hidden (found : state.calls[index]? = some record)
    (wasHidden : record.phase.readEnd = none)
    (isHidden : phase.readEnd = none) {table : FdSlots}
    (cleared : ∀ id ∈ state.unfinished, table.get id = none)
    (same : ∀ id, id ∉ state.unfinished → table.get id = slots.get id) :
    (state.moved index phase slots).finished = table := by
  apply finished_moved_eq found
  · intro id unfinished
    exact cleared id (unfinished.resolve_right (not_endOf isHidden)).mem
  · intro id notOther _
    apply same
    intro member
    exact ((mem_unfinished_iff_of_found found).mp member).elim notOther (not_endOf wasHidden)

def Owned (firstPipe : Nat) (state : FdCallState) : Prop :=
  ∀ (index : Nat) (record : CallRecord FdCall FdPhase) (readFd : BitVec 32),
    state.calls[index]? = some record →
    record.phase.readEnd = some readFd →
      state.object.get (fdIndex readFd) = some (.pipeEnd (firstPipe + index) true) ∧
        readFd = .ofNat 32 (fdIndex readFd) ∧
        record.call = .pipe2 (.ok ())

namespace Owned

variable {firstPipe : Nat} (owned : Owned firstPipe state)

include owned

theorem notMem_of_free (free : state.object.get id = none) :
    id ∉ state.unfinished := by
  intro member
  obtain ⟨other, otherRecord, found, readFd, isEnd, rfl⟩ := mem_unfinished_iff.mp member
  obtain ⟨isThere, -⟩ := owned other otherRecord readFd found isEnd
  rw [free] at isThere
  cases isThere

theorem not_other (found : state.calls[index]? = some record)
    (isEnd : EndOf record.phase id) : ¬ OfOther state index id := by
  rintro ⟨other, otherRecord, different, otherFound, otherFd, isOther, sameId⟩
  obtain ⟨readFd, isOwn, rfl⟩ := isEnd
  obtain ⟨isThere, -⟩ := owned other otherRecord otherFd otherFound isOther
  obtain ⟨isOwnEnd, -⟩ := owned index record readFd found isOwn
  rw [sameId, isOwnEnd] at isThere
  injection Option.some.inj isThere with samePipe
  omega

theorem moved (found : state.calls[index]? = some record)
    (others : ∀ id, OfOther state index id → slots.get id = state.object.get id)
    (own :
      ∀ readFd, phase.readEnd = some readFd →
        slots.get (fdIndex readFd) = some (.pipeEnd (firstPipe + index) true) ∧
          readFd = .ofNat 32 (fdIndex readFd) ∧
          record.call = .pipe2 (.ok ())) :
    Owned firstPipe (state.moved index phase slots) := by
  intro asked later readFd laterFound isEnd
  rcases Roster.changed_or_same found laterFound with ⟨rfl, rfl⟩ | ⟨different, before⟩
  · exact own readFd isEnd
  · obtain ⟨isThere, rest⟩ := owned asked later readFd before isEnd
    have kept := others _ ⟨asked, later, different, before, readFd, isEnd, rfl⟩
    exact ⟨kept.trans isThere, rest⟩

end Owned

end Unfinished

/-! ## One step -/

def Explained (allocator : IdAllocator FileRef axFileLimit)
    (firstPipe : Nat) (state : FdCallState) (index : Nat)
    (record : CallRecord FdCall FdPhase) (phase : FdPhase)
    (after : FdSlots) : Prop :=
  phase.settled = record.phase.settled ∧ after = state.finished ∨
    record.phase.settled = none ∧
      ∃ final, phase.settled = some final ∧
        (fdProtocol allocator firstPipe).Runs index record.call .entered state.finished final after

structure StepSound (allocator : IdAllocator FileRef axFileLimit)
    (firstPipe : Nat) (state : FdCallState) (index : Nat)
    (record : CallRecord FdCall FdPhase) (moved : FdPhase × FdSlots) :
    Prop where
  explained :
    Explained allocator firstPipe state index record moved.1
      (state.moved index moved.1 moved.2).finished
  others : ∀ id, OfOther state index id → moved.2.get id = state.object.get id
  own :
    ∀ readFd, moved.1.readEnd = some readFd →
      moved.2.get (fdIndex readFd) = some (.pipeEnd (firstPipe + index) true) ∧
        readFd = .ofNat 32 (fdIndex readFd) ∧
        record.call = .pipe2 (.ok ())
  noPanic : ∀ fds, record.call = .pipe2 fds → moved.1 ≠ .returned (.error .panicked)

theorem own_of_hidden {phase : FdPhase} {Claim : BitVec 32 → Prop}
    (hidden : phase.readEnd = none) :
    ∀ readFd, phase.readEnd = some readFd → Claim readFd := by
  intro readFd isEnd
  rw [hidden] at isEnd
  cases isEnd

section Step

variable {allocator : IdAllocator FileRef axFileLimit} {firstPipe : Nat}
  {state : FdCallState} {index : Nat} {record : CallRecord FdCall FdPhase}
  (found : state.calls[index]? = some record)

include found

theorem stepSound_of_fails {error : LinuxError} (wasHidden : record.phase.readEnd = none)
    (wasOpen : record.phase.settled = none)
    (runs :
      (fdProtocol allocator firstPipe).Runs index record.call .entered
        state.finished (.returned (.error (.err error))) state.finished) :
    StepSound allocator firstPipe state index record
      (.returned (.error (.err error)), state.object) := by
  refine ⟨Or.inr ⟨wasOpen, _, rfl, ?_⟩, fun _ _ => rfl, own_of_hidden rfl, fun _ _ => by simp⟩
  rw [finished_moved_same (.returned _) found wasHidden.symm]
  exact runs

theorem stepSound_dupLook {oldFd : BitVec 32} (isCall : record.call = .dup oldFd)
    (isPhase : record.phase = .entered) :
    StepSound allocator firstPipe state index record (dupLook oldFd state.object) := by
  have wasHidden : record.phase.readEnd = none := by rw [isPhase]; rfl
  cases named : state.object.get (fdIndex oldFd) with
  | none =>
      have unnamed : state.finished.get (fdIndex oldFd) = none := by
        rw [get_finished, named, ite_self]
      have looked :
          dupLook oldFd state.finished = (.returned (.error (.err .EBADF)), state.finished) := by
        rw [dupLook, unnamed]
      rw [dupLook, named]
      refine stepSound_of_fails found wasHidden (by rw [isPhase]; rfl) ?_
      rw [isCall]
      exact .tail (.refl _ _) (congrArg some looked)
  | some ref =>
      rw [dupLook, named]
      refine ⟨Or.inl ⟨by rw [isPhase]; rfl, ?_⟩, fun _ _ => rfl, own_of_hidden rfl, by simp [isCall]⟩
      exact finished_moved_same _ found wasHidden.symm

theorem stepSound_dupAdd (owned : Owned firstPipe state) {oldFd : BitVec 32} {ref : FileRef}
    (isCall : record.call = .dup oldFd)
    (isPhase : record.phase = .holding ref)
    (stillNamed : state.finished.get (fdIndex oldFd) = some ref)
    (samePick : allocator.pick state.finished = allocator.pick state.object) :
    StepSound allocator firstPipe state index record (dupAdd allocator ref state.object) := by
  have wasHidden : record.phase.readEnd = none := by rw [isPhase]; rfl
  have wasOpen : record.phase.settled = none := by rw [isPhase]; rfl
  have runsTo {moved : FdPhase × FdSlots} (added : dupAdd allocator ref state.finished = moved) :
      (fdProtocol allocator firstPipe).Runs index record.call .entered
        state.finished moved.1 moved.2 := by
    have looked : dupLook oldFd state.finished = (.holding ref, state.finished) := by
      rw [dupLook, stillNamed]
    rw [isCall]
    exact .tail (.tail (.refl _ _) (congrArg some looked)) (congrArg some added)
  cases picked : allocator.pick state.object with
  | none =>
      have failed (table : FdSlots) (full : allocator.pick table = none) :
          dupAdd allocator ref table = (.returned (.error (.err .EMFILE)), table) := by
        rw [dupAdd, addSlot_of_pick_none full]
      rw [failed _ picked]
      exact stepSound_of_fails found wasHidden wasOpen (runsTo (failed _ (samePick.trans picked)))
  | some id =>
      obtain ⟨inside, free⟩ := allocator.pickFree _ _ picked
      have different {asked : Nat} (member : asked ∈ state.unfinished) :
          id ≠ asked := by
        rintro rfl
        exact owned.notMem_of_free free member
      have added (table : FdSlots) (same : allocator.pick table = some id) :
          dupAdd allocator ref table =
            (.returned (.ok (.fd (.ofNat 32 id))), table.setSlot id (some ref)) := by
        rw [dupAdd, addSlot_of_pick same]
      rw [added _ picked]
      refine ⟨Or.inr ⟨wasOpen, _, rfl, ?_⟩, ?_, own_of_hidden rfl, by simp [isCall]⟩
      · have isAfter :
            (state.moved index (.returned (.ok (.fd (.ofNat 32 id))))
                (state.object.setSlot id (some ref))).finished =
              state.finished.setSlot id (some ref) := by
          apply finished_moved_hidden found wasHidden rfl
          · intro asked member
            rw [FlattenObjects.get_setSlot _ inside,
              if_neg (different member), get_finished, if_pos member]
          · intro asked notIn
            rw [FlattenObjects.get_setSlot _ inside, FlattenObjects.get_setSlot _ inside,
              get_finished_of_notMem notIn]
        rw [isAfter]
        exact runsTo (added _ (samePick.trans picked))
      · intro asked isOther
        rw [FlattenObjects.get_setSlot _ inside, if_neg (different isOther.mem)]

theorem stepSound_dup2 {oldFd newFd : BitVec 32} (isCall : record.call = .dup2 oldFd newFd)
    (isPhase : record.phase = .entered)
    (oldNotIn : fdIndex oldFd ∉ state.unfinished)
    (newNotIn : fdIndex newFd ∉ state.unfinished) :
    StepSound allocator firstPipe state index record
      (.returned (dup2Slot state.object oldFd newFd).1, (dup2Slot state.object oldFd newFd).2) := by
  have wasHidden : record.phase.readEnd = none := by rw [isPhase]; rfl
  obtain ⟨sameResult, sameSlots⟩ :=
    @dup2Slot_agree state.finished state.object oldFd newFd (get_finished_of_notMem oldNotIn)
  have kept (table : FdSlots) {id : Nat} (member : id ∈ state.unfinished) :
      (dup2Slot table oldFd newFd).2.get id = table.get id := by
    apply get_dup2Slot_of_ne
    rintro rfl
    exact newNotIn member
  refine ⟨Or.inr ⟨by rw [isPhase]; rfl, _, rfl, ?_⟩, ?_, own_of_hidden rfl, by simp [isCall]⟩
  · have isAfter :
        (state.moved index (.returned (dup2Slot state.object oldFd newFd).1)
            (dup2Slot state.object oldFd newFd).2).finished =
          (dup2Slot state.finished oldFd newFd).2 := by
      apply finished_moved_hidden found wasHidden rfl
      · intro id member
        rw [kept _ member, get_finished, if_pos member]
      · intro id notIn
        exact sameSlots id (get_finished_of_notMem notIn)
    rw [isAfter, isCall, ← sameResult]
    exact .tail (.refl _ _) rfl
  · intro id isOther
    exact kept _ isOther.mem

theorem stepSound_close {fd : BitVec 32} (isCall : record.call = .close fd)
    (isPhase : record.phase = .entered)
    (notIn : fdIndex fd ∉ state.unfinished) :
    StepSound allocator firstPipe state index record (closeStep fd state.object) := by
  have wasHidden : record.phase.readEnd = none := by rw [isPhase]; rfl
  have kept (table : FdSlots) {id : Nat} (member : id ∈ state.unfinished) :
      (closeSlot table fd).2.get id = table.get id := by
    rw [get_closeSlot, if_neg]
    rintro rfl
    exact notIn member
  have closed : closeStep fd state.finished = _ := closeStep_eq fd _
  rw [get_finished_of_notMem notIn] at closed
  rw [closeStep_eq]
  refine ⟨Or.inr ⟨by rw [isPhase]; rfl, _, rfl, ?_⟩, ?_, own_of_hidden rfl, by simp [isCall]⟩
  · have isAfter (phase : FdPhase) (isHidden : phase.readEnd = none) :
        (state.moved index phase (closeSlot state.object fd).2).finished =
          (closeSlot state.finished fd).2 := by
      apply finished_moved_hidden found wasHidden isHidden
      · intro id member
        rw [kept _ member, get_finished, if_pos member]
      · intro id idNotIn
        rw [get_closeSlot, get_closeSlot, get_finished_of_notMem idNotIn]
    rw [isAfter _ rfl, isCall]
    exact .tail (.refl _ _) (congrArg some closed)
  · intro id isOther
    exact kept _ isOther.mem

theorem stepSound_pipeAddRead (owned : Owned firstPipe state) {fds : LinuxResult Unit}
    (isCall : record.call = .pipe2 fds) (isPhase : record.phase = .entered)
    (noRoom :
      fds = .ok () → allocator.pick state.object = none → allocator.pick state.finished = none) :
    StepSound allocator firstPipe state index record
      (pipeAddRead allocator (firstPipe + index) fds state.object) := by
  have wasHidden : record.phase.readEnd = none := by rw [isPhase]; rfl
  have wasOpen : record.phase.settled = none := by rw [isPhase]; rfl
  have runsTo {moved : FdPhase × FdSlots}
      (added : pipeAddRead allocator (firstPipe + index) fds state.finished = moved) :
      (fdProtocol allocator firstPipe).Runs index record.call .entered
        state.finished moved.1 moved.2 := by
    rw [isCall]
    exact .tail (.refl _ _) (congrArg some added)
  cases fds with
  | error error =>
      exact stepSound_of_fails found wasHidden wasOpen (runsTo rfl)
  | ok accessible =>
      cases picked : allocator.pick state.object with
      | none =>
          have failed (table : FdSlots) (full : allocator.pick table = none) :
              pipeAddRead allocator (firstPipe + index) (.ok accessible) table =
                (.returned (.error (.err .EMFILE)), table) := by
            simp only [pipeAddRead, addSlot_of_pick_none full]
          rw [failed _ picked]
          exact stepSound_of_fails found wasHidden wasOpen (runsTo (failed _ (noRoom rfl picked)))
      | some id =>
          obtain ⟨inside, free⟩ := allocator.pickFree _ _ picked
          have notIn := owned.notMem_of_free free
          have isIndex := fdIndex_ofNat inside
          have ownEnd {asked : Nat} : EndOf (.half (.ofNat 32 id)) asked ↔ id = asked := by
            rw [endOf_iff rfl, isIndex]
          simp only [pipeAddRead, addSlot_of_pick picked]
          refine ⟨Or.inl ⟨wasOpen.symm, ?_⟩, ?_, ?_, fun _ _ => by simp⟩
          · apply finished_moved_eq found
            · rintro asked (isOther | isOwn)
              · rw [get_finished, if_pos isOther.mem]
              · rw [← ownEnd.mp isOwn, get_finished_of_notMem notIn, free]
            · intro asked notOther notOwn
              have askedNotIn : asked ∉ state.unfinished := by
                intro member
                exact ((mem_unfinished_iff_of_found found).mp member).elim
                    notOther (not_endOf wasHidden)
              rw [FlattenObjects.get_setSlot _ inside, if_neg (mt ownEnd.mpr notOwn),
                get_finished_of_notMem askedNotIn]
          · intro asked isOther
            have different : id ≠ asked := by
              rintro rfl
              exact notIn isOther.mem
            rw [FlattenObjects.get_setSlot _ inside, if_neg different]
          · intro readFd isEnd
            obtain rfl := Option.some.inj isEnd
            rw [isIndex, FlattenObjects.get_setSlot _ inside, if_pos rfl]
            exact ⟨rfl, rfl, isCall⟩

section Half

variable (owned : Owned firstPipe state) {readFd : BitVec 32}
  (isEnd : record.phase.readEnd = some readFd)

include owned isEnd

theorem get_finished_setSlot {asked : Nat} (notOther : ¬ OfOther state index asked) :
    (state.finished.setSlot (fdIndex readFd) (some (.pipeEnd (firstPipe + index) true))).get asked =
      state.object.get asked := by
  obtain ⟨isThere, -⟩ := owned index record readFd found isEnd
  rw [FlattenObjects.get_setSlot _ (FlattenObjects.lt_of_get_eq_some isThere)]
  split
  · next same => rw [← same, isThere]
  · next notOwn =>
      apply get_finished_of_notMem
      intro member
      exact ((mem_unfinished_iff_of_found found).mp member).elim notOther
          fun isOwn => notOwn ((endOf_iff isEnd).mp isOwn)

theorem get_finished_setSlot_other {asked : Nat} (isOther : OfOther state index asked) :
    (state.finished.setSlot (fdIndex readFd)
        (some (.pipeEnd (firstPipe + index) true))).get asked = none := by
  obtain ⟨isThere, -⟩ := owned index record readFd found isEnd
  have notOwn : fdIndex readFd ≠ asked := by
    intro isOwn
    exact owned.not_other found ((endOf_iff isEnd).mpr isOwn) isOther
  rw [FlattenObjects.get_setSlot _
    (FlattenObjects.lt_of_get_eq_some isThere), if_neg notOwn, get_finished,
    if_pos isOther.mem]

theorem pipeUndo_finished (error : LinuxError) :
    pipeUndo readFd error
        (state.finished.setSlot (fdIndex readFd) (some (.pipeEnd (firstPipe + index) true))) =
      (.returned (.error (.err error)), state.finished) := by
  obtain ⟨isThere, -⟩ := owned index record readFd found isEnd
  have inside := FlattenObjects.lt_of_get_eq_some isThere
  have ownFree : state.finished.get (fdIndex readFd) = none := by
    rw [get_finished, if_pos ((mem_unfinished_iff_of_found found).mpr
      (Or.inr ⟨readFd, isEnd, rfl⟩))]
  have present :
      (state.finished.setSlot (fdIndex readFd)
          (some (.pipeEnd (firstPipe + index) true))).get (fdIndex readFd) =
        some (.pipeEnd (firstPipe + index) true) := by
    rw [FlattenObjects.get_setSlot _ inside, if_pos rfl]
  have restored :
      (state.finished.setSlot (fdIndex readFd)
          (some (.pipeEnd (firstPipe + index) true))).setSlot (fdIndex readFd) none =
        state.finished := by
    apply FlattenObjects.ext_get
    intro asked
    rw [FlattenObjects.get_setSlot_none, FlattenObjects.get_setSlot _ inside]
    split
    · next same => rw [← same, ownFree]
    · rfl
  rw [pipeUndo, closeSlot, present]
  simp only [restored]

theorem stepSound_pipeAddWrite (isPhase : record.phase = .half readFd)
    (samePlace : allocator.pick state.finished = some (fdIndex readFd))
    (samePick :
      allocator.pick (state.finished.setSlot (fdIndex readFd) (state.object.get (fdIndex readFd))) =
        allocator.pick state.object) :
    StepSound allocator firstPipe state index record
      (pipeAddWrite allocator (firstPipe + index) readFd state.object) := by
  have wasOpen : record.phase.settled = none := by rw [isPhase]; rfl
  obtain ⟨isThere, isNumber, isCall⟩ := owned index record readFd found isEnd
  rw [isThere] at samePick
  have begins :
      (fdProtocol allocator firstPipe).Runs index record.call .entered state.finished (.half readFd)
        (state.finished.setSlot (fdIndex readFd) (some (.pipeEnd (firstPipe + index) true))) := by
    rw [isCall]
    refine .tail (.refl _ _) (congrArg some ?_)
    simp only [pipeAddRead, addSlot_of_pick samePlace, ← isNumber]
  have runsTo {moved : FdPhase × FdSlots}
      (added :
        pipeAddWrite allocator (firstPipe + index) readFd
            (state.finished.setSlot (fdIndex readFd) (some (.pipeEnd (firstPipe + index) true))) =
          moved) :
      (fdProtocol allocator firstPipe).Runs index record.call .entered
        state.finished moved.1 moved.2 := by
    refine .tail begins ?_
    rw [isCall]
    exact congrArg some added
  cases picked : allocator.pick state.object with
  | none =>
      have failed (table : FdSlots) (full : allocator.pick table = none) :
          pipeAddWrite allocator (firstPipe + index) readFd table =
            (.undoing readFd .EMFILE, table) := by
        simp only [pipeAddWrite, addSlot_of_pick_none full]
      rw [failed _ picked]
      refine ⟨Or.inr ⟨wasOpen, _, rfl, ?_⟩, fun _ _ => rfl, ?_, fun _ _ => by simp⟩
      · have undone := pipeUndo_finished found owned isEnd .EMFILE
        rw [finished_moved_same (.undoing readFd _) found isEnd.symm]
        refine .tail (runsTo (failed _ (samePick.trans picked))) ?_
        rw [isCall]
        exact congrArg some undone
      · intro asked isAsked
        obtain rfl := Option.some.inj isAsked
        exact ⟨isThere, isNumber, isCall⟩
  | some id =>
      obtain ⟨inside, free⟩ := allocator.pickFree _ _ picked
      have different {asked : Nat} (isOther : OfOther state index asked) :
          id ≠ asked := by
        rintro rfl
        exact owned.notMem_of_free free isOther.mem
      have added (table : FdSlots) (same : allocator.pick table = some id) :
          pipeAddWrite allocator (firstPipe + index) readFd table =
            (.returned (.ok (.ends readFd (.ofNat 32 id))),
              table.setSlot id (some (.pipeEnd (firstPipe + index) false))) := by
        simp only [pipeAddWrite, addSlot_of_pick same]
      rw [added _ picked]
      refine ⟨Or.inr ⟨wasOpen, _, rfl, ?_⟩, ?_, own_of_hidden rfl, fun _ _ => by simp⟩
      · have isAfter :
            (state.moved index (.returned (.ok (.ends readFd (.ofNat 32 id))))
                (state.object.setSlot id (some (.pipeEnd (firstPipe + index) false)))).finished =
              (state.finished.setSlot (fdIndex readFd)
                (some (.pipeEnd (firstPipe + index) true))).setSlot id
                  (some (.pipeEnd (firstPipe + index) false)) := by
          apply finished_moved_eq found
          · intro asked unfinished
            have isOther := unfinished.resolve_right (not_endOf rfl)
            rw [FlattenObjects.get_setSlot _ inside, if_neg (different isOther),
              get_finished_setSlot_other found owned isEnd isOther]
          · intro asked notOther _
            rw [FlattenObjects.get_setSlot _ inside, FlattenObjects.get_setSlot _ inside,
              get_finished_setSlot found owned isEnd notOther]
        rw [isAfter]
        exact runsTo (added _ (samePick.trans picked))
      · intro asked isOther
        rw [FlattenObjects.get_setSlot _ inside, if_neg (different isOther)]

theorem stepSound_pipeUndo {error : LinuxError} (isPhase : record.phase = .undoing readFd error) :
    StepSound allocator firstPipe state index record (pipeUndo readFd error state.object) := by
  obtain ⟨isThere, -⟩ := owned index record readFd found isEnd
  have undone :
      pipeUndo readFd error state.object =
        (.returned (.error (.err error)), state.object.setSlot (fdIndex readFd) none) := by
    rw [pipeUndo, closeSlot, isThere]
  rw [undone]
  refine ⟨Or.inl ⟨by rw [isPhase]; rfl, ?_⟩, ?_, own_of_hidden rfl, fun _ _ => by simp⟩
  · apply finished_moved_eq found
    · intro asked unfinished
      have isOther := unfinished.resolve_right (not_endOf rfl)
      rw [get_finished, if_pos isOther.mem]
    · intro asked notOther _
      rw [FlattenObjects.get_setSlot_none, get_finished]
      simp only [mem_unfinished_iff_of_found found, notOther, false_or, endOf_iff isEnd]
  · intro asked isOther
    have different : fdIndex readFd ≠ asked := by
      intro isOwn
      exact owned.not_other found ((endOf_iff isEnd).mpr isOwn) isOther
    rw [FlattenObjects.get_setSlot_none, if_neg different]

end Half

theorem stepSound_of_decides {moved : FdPhase × FdSlots} (owned : Owned firstPipe state)
    (stepped :
      fdStep allocator (firstPipe + index) record.call record.phase state.object = some moved)
    (decides : Decides allocator state record.call record.phase) :
    StepSound allocator firstPipe state index record moved := by
  cases isCall : record.call with
  | dup oldFd =>
      rw [isCall] at stepped decides
      cases isPhase : record.phase with
      | entered =>
          rw [isPhase] at stepped
          obtain rfl := Option.some.inj stepped
          exact stepSound_dupLook found isCall isPhase
      | holding ref =>
          rw [isPhase] at stepped decides
          obtain rfl := Option.some.inj stepped
          exact stepSound_dupAdd found owned isCall isPhase decides.1 decides.2
      | _ =>
          rw [isPhase] at stepped
          cases stepped
  | dup2 oldFd newFd =>
      rw [isCall] at stepped decides
      cases isPhase : record.phase with
      | entered =>
          rw [isPhase] at stepped decides
          obtain rfl := Option.some.inj stepped
          exact stepSound_dup2 found isCall isPhase decides.1 decides.2
      | _ =>
          rw [isPhase] at stepped
          cases stepped
  | pipe2 fds =>
      rw [isCall] at stepped decides
      cases isPhase : record.phase with
      | entered =>
          rw [isPhase] at stepped decides
          obtain rfl := Option.some.inj stepped
          refine stepSound_pipeAddRead found owned isCall isPhase ?_
          rintro rfl
          exact decides
      | half readFd =>
          rw [isPhase] at stepped decides
          obtain rfl := Option.some.inj stepped
          obtain ⟨samePlace, samePick⟩ : _ ∧ _ := by
            cases fds <;> exact decides
          exact stepSound_pipeAddWrite found owned (by rw [isPhase]; rfl) isPhase samePlace samePick
      | undoing readFd error =>
          rw [isPhase] at stepped
          obtain rfl := Option.some.inj stepped
          exact stepSound_pipeUndo found owned (by rw [isPhase]; rfl) isPhase
      | _ =>
          rw [isPhase] at stepped
          cases stepped
  | close fd =>
      rw [isCall] at stepped decides
      cases isPhase : record.phase with
      | entered =>
          rw [isPhase] at stepped decides
          obtain rfl := Option.some.inj stepped
          exact stepSound_close found isCall isPhase decides
      | _ =>
          rw [isPhase] at stepped
          cases stepped

end Step

end Vegar.File

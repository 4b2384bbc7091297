import Vegar.File.FdUnfinished

/-!
# Descriptor calls by several threads

In a run in which unfinished pipes make no difference to the calls at the steps
that decide them, the calls are linearizable in the order of their decision,
and a `sys_pipe2` that fails closes its own descriptor.
-/

namespace Vegar.File

open Vegar.Lib
open FdWorld (fdIndex fdIndex_ofNat)

def FdUndisturbed (allocator : IdAllocator FileRef axFileLimit)
    (state : FdCallState) : AtomicAction FdCall → Prop
  | .invoke _ => True
  | .step index =>
      ∀ record : CallRecord FdCall FdPhase,
        state.calls[index]? = some record → Decides allocator state record.call record.phase

def KnownPipes (firstPipe : Nat) (slots : FdSlots) : Prop :=
  ∀ id pipe readable, slots.get id = some (.pipeEnd pipe readable) → pipe < firstPipe

def fdCallMachine (allocator : IdAllocator FileRef axFileLimit)
    (firstPipe : Nat) : Machine FdCallState (AtomicAction FdCall) :=
  (fdProtocol allocator firstPipe).machine (KnownPipes firstPipe)

/-- The calls are linearizable; no `sys_pipe2` panics, and one that has to
undo its first end closes a descriptor that is its own. -/
structure FdCallsAtomic (allocator : IdAllocator FileRef axFileLimit)
    (firstPipe : Nat) (state : FdCallState) : Prop where
  linearizable : (fdProtocol allocator firstPipe).Linearizable state
  noPanic :
    ∀ record ∈ state.calls, ∀ fds, record.call = .pipe2 fds →
      record.phase ≠ .returned (.error .panicked)
  undoesOwn :
    ∀ (index : Nat) (record : CallRecord FdCall FdPhase)
      (fds : LinuxResult Unit) (readFd : BitVec 32) (error : LinuxError),
      state.calls[index]? = some record → record.call = .pipe2 fds →
      record.phase = .undoing readFd error →
        state.object.get (fdIndex readFd) = some (.pipeEnd (firstPipe + index) true)

/-! ## Whole runs -/

structure FdInvariant (allocator : IdAllocator FileRef axFileLimit)
    (firstPipe : Nat) (state : FdCallState) : Prop where
  linearized : ∃ sequence, (fdProtocol allocator firstPipe).Linearized state sequence state.finished
  owned : Owned firstPipe state
  noPanic :
    ∀ record ∈ state.calls, ∀ fds, record.call = .pipe2 fds →
      record.phase ≠ .returned (.error .panicked)

namespace FdInvariant

variable {allocator : IdAllocator FileRef axFileLimit} {firstPipe : Nat}
  {state target : FdCallState}

theorem invoke (holds : FdInvariant allocator firstPipe state) (call : FdCall) :
    FdInvariant allocator firstPipe
      { state with
        calls := state.calls ++ [⟨call, .entered, state.order⟩] } := by
  obtain ⟨sequence, linearized⟩ := holds.linearized
  have sameUnfinished :
      FdCallState.unfinished
          { state with
            calls := state.calls ++ [⟨call, .entered, state.order⟩] } =
        state.unfinished :=
    (List.filterMap_append).trans (List.append_nil _)
  refine ⟨⟨sequence, ?_⟩, ?_, ?_⟩
  · rw [FdCallState.finished, sameUnfinished]
    exact linearized.invoke call
  · intro index record readFd found isEnd
    rcases Roster.old_or_added found with before | ⟨-, rfl⟩
    · exact holds.owned index record readFd before isEnd
    · cases isEnd
  · exact Roster.forall_mem_concat holds.noPanic fun _ _ => nofun

theorem moved (holds : FdInvariant allocator firstPipe state) {index : Nat}
    {record : CallRecord FdCall FdPhase} {moved : FdPhase × FdSlots}
    (found : state.calls[index]? = some record)
    (sound : StepSound allocator firstPipe state index record moved) :
    FdInvariant allocator firstPipe (state.moved index moved.1 moved.2) := by
  obtain ⟨sequence, linearized⟩ := holds.linearized
  refine ⟨?_, holds.owned.moved found sound.others sound.own, ?_⟩
  · rcases sound.explained with ⟨same, isFinished⟩ | ⟨wasOpen, final, isSettled, runs⟩
    · rw [isFinished]
      exact ⟨sequence, linearized.quiet found same⟩
    · exact ⟨sequence ++ [index], linearized.decide found wasOpen isSettled runs⟩
  · intro changed member fds isPipe
    obtain ⟨asked, askedFound⟩ := List.mem_iff_getElem?.mp member
    rcases Roster.changed_or_same found askedFound with ⟨-, rfl⟩ | ⟨-, before⟩
    · exact sound.noPanic fds isPipe
    · exact holds.noPanic changed (List.mem_of_getElem? before) fds isPipe

theorem step {action : AtomicAction FdCall} (holds : FdInvariant allocator firstPipe state)
    (undisturbed : FdUndisturbed allocator state action)
    (stepped : (fdCallMachine allocator firstPipe).next state action = some target) :
    FdInvariant allocator firstPipe target := by
  cases action with
  | invoke call =>
      obtain rfl := Option.some.inj stepped
      exact holds.invoke call
  | step index =>
      obtain ⟨record, found, moves⟩ := Option.bind_eq_some_iff.mp stepped
      obtain ⟨moved, isMoved, rfl⟩ := Option.map_eq_some_iff.mp moves
      exact holds.moved found
          (stepSound_of_decides found holds.owned isMoved (undisturbed record found))

theorem of_reachable
    (reached :
      (fdCallMachine allocator firstPipe).ReachableWithin (FdUndisturbed allocator) state) :
    FdInvariant allocator firstPipe state := by
  refine Machine.ReachableWithin.invariant ?_ ?_ reached
  · rintro ⟨initial, object, calls, order⟩ ⟨-, same, noCalls, noOrder⟩
    obtain rfl : object = initial := same
    obtain rfl : calls = [] := noCalls
    obtain rfl : order = [] := noOrder
    refine ⟨⟨[], Protocol.Linearized.start object⟩, ?_, ?_⟩
    · intro index record readFd found
      cases found
    · intro record member
      cases member
  · intro source action target _ holds undisturbed stepped
    exact holds.step undisturbed stepped

theorem finished_of_returned
    (allReturned : ∀ record ∈ state.calls, record.phase.isReturned = true) :
    state.finished = state.object := by
  have nothing : state.unfinished = [] := by
    apply List.filterMap_eq_nil_iff.mpr
    intro record member
    have isReturned := allReturned record member
    cases isPhase : record.phase with
    | returned outcome => rfl
    | _ =>
        rw [isPhase] at isReturned
        cases isReturned
  rw [FdCallState.finished, nothing]
  rfl

end FdInvariant

/-- In every run whose steps unfinished pipes make no difference to, the calls
are atomic. -/
theorem fd_calls_atomic_of_undisturbed
    (allocator : IdAllocator FileRef axFileLimit) (firstPipe : Nat)
    {state : FdCallState}
    (reached :
      (fdCallMachine allocator firstPipe).ReachableWithin (FdUndisturbed allocator) state) :
    FdCallsAtomic allocator firstPipe state := by
  have holds := FdInvariant.of_reachable reached
  obtain ⟨sequence, linearized⟩ := holds.linearized
  refine ⟨linearized.linearizable ?_, holds.noPanic, ?_⟩
  · intro allReturned
    exact (FdInvariant.finished_of_returned allReturned).symm
  · intro index record fds readFd error found _ isUndoing
    exact (holds.owned index record readFd found (by rw [isUndoing]; rfl)).1

/-! ## Runs with one free slot -/

section OneSlot

variable {allocator : IdAllocator FileRef axFileLimit}

theorem fdCallMachine_step {firstPipe index : Nat} {state target : FdCallState}
    {record : CallRecord FdCall FdPhase} {moved : FdPhase × FdSlots}
    (found : state.calls[index]? = some record)
    (stepped :
      fdStep allocator (firstPipe + index) record.call record.phase state.object = some moved)
    (isTarget : target = state.moved index moved.1 moved.2) :
    (fdCallMachine allocator firstPipe).next state (.step index) =
      some target := by
  rw [isTarget]
  exact @Protocol.next_step _ _ _ (fdProtocol allocator firstPipe) _ _ _ _ found stepped

theorem pick_of_onlyFree {slots : FdSlots} {id : Nat} (inside : id < axFileLimit)
    (free : slots.get id = none)
    (othersTaken : ∀ other < axFileLimit, other ≠ id → slots.get other ≠ none) :
    allocator.pick slots = some id := by
  cases picked : allocator.pick slots with
  | none => exact absurd free (allocator.pickFull slots picked id inside)
  | some other =>
      obtain ⟨otherInside, otherFree⟩ := allocator.pickFree slots other picked
      by_contra different
      refine othersTaken other otherInside ?_ otherFree
      rintro rfl
      exact different rfl

theorem pick_of_full {slots : FdSlots} (full : ∀ id < axFileLimit, slots.get id ≠ none) :
    allocator.pick slots = none := by
  cases picked : allocator.pick slots with
  | none => rfl
  | some id =>
      obtain ⟨inside, free⟩ := allocator.pickFree slots id picked
      exact absurd free (full id inside)

end OneSlot

def onlyFree (id : Nat) : FdSlots :=
  (⟨Vector.replicate axFileLimit (some (.other 0))⟩ : FdSlots).setSlot id none

theorem get_onlyFree {id asked : Nat} (inside : id < axFileLimit)
    (askedInside : asked < axFileLimit) :
    (onlyFree id).get asked =
      if id = asked then none else some (.other 0) := by
  rw [onlyFree, FlattenObjects.get_setSlot _ inside]
  simp [FlattenObjects.get, askedInside]

def lastTaken : FdSlots := (onlyFree 3).setSlot 3 (some (.pipeEnd 0 true))

theorem get_lastTaken (asked : Nat) :
    lastTaken.get asked =
      if 3 = asked then some (.pipeEnd 0 true)
      else (onlyFree 3).get asked :=
  FlattenObjects.get_setSlot _ (by decide) _ _

theorem pick_onlyFree (allocator : IdAllocator FileRef axFileLimit) :
    allocator.pick (onlyFree 3) = some 3 := by
  have inside : 3 < axFileLimit := by decide
  apply pick_of_onlyFree inside
  · rw [get_onlyFree inside inside, if_pos rfl]
  · intro other otherInside different
    rw [get_onlyFree inside otherInside, if_neg different.symm]
    exact nofun

theorem pick_lastTaken (allocator : IdAllocator FileRef axFileLimit) :
    allocator.pick lastTaken = none := by
  apply pick_of_full
  intro id inside
  rw [get_lastTaken]
  split
  · exact nofun
  · next different =>
      rw [get_onlyFree (by decide) inside, if_neg different]
      exact nofun

theorem start_onlyFree :
    (fdCallMachine (.smallest FileRef axFileLimit) 0).start ⟨onlyFree 3, onlyFree 3, [], []⟩ := by
  refine ⟨?_, rfl, rfl, rfl⟩
  intro id pipe readable found
  rw [get_onlyFree (by decide) (FlattenObjects.lt_of_get_eq_some found)] at found
  split at found <;> cases found

theorem fdStep_pipe2_onlyFree :
    fdStep (.smallest FileRef axFileLimit) 0 (.pipe2 (.ok ())) .entered (onlyFree 3) =
        some (.half 3, lastTaken) ∧
      fdStep (.smallest FileRef axFileLimit) 0 (.pipe2 (.ok ())) (.half 3) lastTaken =
        some (.undoing 3 .EMFILE, lastTaken) := by
  constructor
  · change some (pipeAddRead _ 0 (.ok ()) (onlyFree 3)) = _
    rw [pipeAddRead, addSlot_of_pick (pick_onlyFree _)]
    rfl
  · change some (pipeAddWrite _ 0 3 lastTaken) = _
    rw [pipeAddWrite, addSlot_of_pick_none (pick_lastTaken _)]

theorem fdStep_close {slots : FdSlots} {fd : BitVec 32} {pipe : Nat} {ref : FileRef}
    (present : slots.get (fdIndex fd) = some ref) :
    fdStep (.smallest FileRef axFileLimit) pipe (.close fd) .entered slots =
      some (.returned (.ok .done), slots.setSlot (fdIndex fd) none) := by
  change some (closeStep fd slots) = _
  rw [closeStep, closeSlot, present]

def undoingState (slots : FdSlots) (others : List (CallRecord FdCall FdPhase)) (order : List Nat) :
    FdCallState :=
  ⟨onlyFree 3, slots, ⟨.pipe2 (.ok ()), .undoing 3 .EMFILE, []⟩ :: others, order⟩

private theorem finished_half :
    FdCallState.finished ⟨onlyFree 3, lastTaken, [⟨.pipe2 (.ok ()), .half 3, []⟩], []⟩ =
      onlyFree 3 := by
  apply FlattenObjects.ext_get
  intro id
  change (lastTaken.setSlot 3 none).get id = _
  rw [FlattenObjects.get_setSlot_none, get_lastTaken]
  split
  · next same =>
      rw [← same, get_onlyFree (by decide) (by decide), if_pos rfl]
  · rfl

private theorem get_lastTaken_own : lastTaken.get (fdIndex 3) = some (.pipeEnd 0 true) := by
  change lastTaken.get 3 = _
  rw [get_lastTaken, if_pos rfl]

private theorem undoing_reachable :
    (fdCallMachine (.smallest FileRef axFileLimit) 0).ReachableWithin
      (FdUndisturbed (.smallest FileRef axFileLimit))
      (undoingState lastTaken [] []) := by
  obtain ⟨readAdded, writeFailed⟩ := fdStep_pipe2_onlyFree
  have entered :
      (fdCallMachine (.smallest FileRef axFileLimit) 0).ReachableWithin
        (FdUndisturbed (.smallest FileRef axFileLimit))
        ⟨onlyFree 3, onlyFree 3, [⟨.pipe2 (.ok ()), .entered, []⟩], []⟩ :=
    .step (.invoke (.pipe2 (.ok ()))) (.start start_onlyFree) trivial rfl
  have half :
      (fdCallMachine (.smallest FileRef axFileLimit) 0).ReachableWithin
        (FdUndisturbed (.smallest FileRef axFileLimit))
        ⟨onlyFree 3, lastTaken, [⟨.pipe2 (.ok ()), .half 3, []⟩], []⟩ := by
    refine .step (.step 0) entered ?_ (fdCallMachine_step rfl readAdded rfl)
    intro record found
    obtain rfl := Option.some.inj found
    intro full
    rw [pick_onlyFree] at full
    cases full
  refine .step (.step 0) half ?_ (fdCallMachine_step rfl writeFailed rfl)
  intro record found
  obtain rfl := Option.some.inj found
  have addedAgain : (onlyFree 3).setSlot (fdIndex 3) (some (.pipeEnd 0 true)) = lastTaken := rfl
  change _ ∧ _
  rw [finished_half, get_lastTaken_own, addedAgain]
  exact ⟨pick_onlyFree _, rfl⟩

private theorem closed_reachable {allowed : FdCallState → AtomicAction FdCall → Prop}
    (undoing :
      (fdCallMachine (.smallest FileRef axFileLimit) 0).ReachableWithin
        allowed (undoingState lastTaken [] []))
    (fd : BitVec 32) {ref : FileRef}
    (mayEnter : allowed (undoingState lastTaken [] []) (.invoke (.close fd)))
    (mayClose : allowed (undoingState lastTaken [⟨.close fd, .entered, []⟩] []) (.step 1))
    (present : lastTaken.get (fdIndex fd) = some ref) :
    (fdCallMachine (.smallest FileRef axFileLimit) 0).ReachableWithin allowed
      (undoingState (lastTaken.setSlot (fdIndex fd) none)
        [⟨.close fd, .returned (.ok .done), []⟩] [1]) := by
  have closing :
      (fdCallMachine (.smallest FileRef axFileLimit) 0).ReachableWithin
        allowed (undoingState lastTaken [⟨.close fd, .entered, []⟩] []) :=
    .step (.invoke (.close fd)) undoing mayEnter rfl
  exact .step (.step 1) closing mayClose (fdCallMachine_step rfl (fdStep_close present) rfl)

/-- While a `sys_pipe2` undoes its first end, another thread closes another
descriptor.  The call that returns last comes first in the order. -/
theorem fd_calls_atomic_of_undisturbed_undo :
    ∃ state : FdCallState,
      (fdCallMachine (.smallest FileRef axFileLimit) 0).ReachableWithin
        (FdUndisturbed (.smallest FileRef axFileLimit)) state ∧
      state.initial = onlyFree 3 ∧
      state.calls.map (fun record => (record.call, record.phase)) =
        [(.pipe2 (.ok ()), .returned (.error (.err .EMFILE))), (.close 7, .returned (.ok .done))] ∧
      state.order = [1, 0] ∧
      FdCallsAtomic (.smallest FileRef axFileLimit) 0 state := by
  have present : lastTaken.get (fdIndex 7) = some (.other 0) := by
    change lastTaken.get 7 = _
    rw [get_lastTaken, if_neg (by decide), get_onlyFree (by decide) (by decide), if_neg (by decide)]
  have ownEnd : (lastTaken.setSlot 7 none).get (fdIndex 3) = some (.pipeEnd 0 true) := by
    change (lastTaken.setSlot 7 none).get 3 = _
    rw [FlattenObjects.get_setSlot_none, if_neg (by decide), get_lastTaken, if_pos rfl]
  have undone :
      fdStep (.smallest FileRef axFileLimit) 0 (.pipe2 (.ok ()))
          (.undoing 3 .EMFILE) (lastTaken.setSlot 7 none) =
        some (.returned (.error (.err .EMFILE)), (lastTaken.setSlot 7 none).setSlot 3 none) := by
    change some (pipeUndo 3 .EMFILE (lastTaken.setSlot 7 none)) = _
    rw [pipeUndo, closeSlot, ownEnd]
    rfl
  have mayClose :
      FdUndisturbed (.smallest FileRef axFileLimit)
        (undoingState lastTaken [⟨.close 7, .entered, []⟩] []) (.step 1) := by
    intro record found
    obtain rfl := Option.some.inj found
    exact (by decide : fdIndex 7 ∉ [fdIndex 3])
  have closed := closed_reachable undoing_reachable 7 trivial mayClose present
  have finished :
      (fdCallMachine (.smallest FileRef axFileLimit) 0).ReachableWithin
        (FdUndisturbed (.smallest FileRef axFileLimit))
        ⟨onlyFree 3, (lastTaken.setSlot 7 none).setSlot 3 none,
          [⟨.pipe2 (.ok ()), .returned (.error (.err .EMFILE)), []⟩,
            ⟨.close 7, .returned (.ok .done), []⟩], [1, 0]⟩ := by
    refine .step (.step 0) closed ?_ (fdCallMachine_step rfl undone rfl)
    intro record found
    obtain rfl := Option.some.inj found
    trivial
  exact ⟨_, finished, rfl, rfl, rfl, fd_calls_atomic_of_undisturbed _ 0 finished⟩

/-- One slot is left: `sys_pipe2` adds its read end there and cannot add the
other end; another thread closes the descriptor, and closing it again
panics. -/
theorem pipe2_panics_after_close :
    ∃ state : FdCallState, (fdCallMachine (.smallest FileRef axFileLimit) 0).Reachable state ∧
      state.initial = onlyFree 3 ∧
      state.calls.map (fun record => (record.call, record.phase)) =
        [(.pipe2 (.ok ()), .returned (.error .panicked)), (.close 3, .returned (.ok .done))] ∧
      ¬ FdCallsAtomic (.smallest FileRef axFileLimit) 0 state := by
  have panicked :
      fdStep (.smallest FileRef axFileLimit) 0 (.pipe2 (.ok ()))
          (.undoing 3 .EMFILE) (lastTaken.setSlot 3 none) =
        some (.returned (.error .panicked), lastTaken.setSlot 3 none) := by
    have absent : (lastTaken.setSlot 3 none).get (fdIndex 3) = none := by
      change (lastTaken.setSlot 3 none).get 3 = _
      rw [FlattenObjects.get_setSlot_none, if_pos rfl]
    change some (pipeUndo 3 .EMFILE (lastTaken.setSlot 3 none)) = _
    rw [pipeUndo, closeSlot, absent]
  have freed := closed_reachable (undoing_reachable.mono fun _ _ _ => trivial) 3 trivial
      trivial get_lastTaken_own
  have reachedPanic :
      (fdCallMachine (.smallest FileRef axFileLimit) 0).Reachable
        ⟨onlyFree 3, lastTaken.setSlot 3 none,
          [⟨.pipe2 (.ok ()), .returned (.error .panicked), []⟩,
            ⟨.close 3, .returned (.ok .done), []⟩], [1, 0]⟩ :=
    Machine.Reachable.step freed (.step 0) (fdCallMachine_step rfl panicked rfl)
  refine ⟨_, reachedPanic, rfl, rfl, ?_⟩
  intro atomic
  exact atomic.noPanic _ List.mem_cons_self (.ok ()) rfl rfl

end Vegar.File

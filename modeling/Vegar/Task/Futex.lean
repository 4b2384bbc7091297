import Vegar.Lib.Machine
import Vegar.Lib.Roster
import Vegar.Outcome
import Vegar.Task.FutexTable

/-!
# Waiting for and waking a futex

`FUTEX_WAIT` and `FUTEX_WAKE` of `api/src/imp/futex.rs`, by any number of
threads of one process.  A waker stores a value and then wakes.  Each waiter
also carries the wakers that overwrote the value it expects between its
comparison and its falling asleep.
-/

namespace Vegar.Task

open Vegar.Lib

/-- Where a `FUTEX_WAIT` stands.  From `holding` on it has a guard. -/
inductive WaitPhase where
  | comparing
  | compared
  | holding (queue : Nat)
  | asleep (queue : Nat)
  | leaving (queue : Nat) (result : LinuxResult Nat)
  | returned (result : LinuxResult Nat)
  deriving DecidableEq

def WaitPhase.decided : WaitPhase → Bool
  | .compared => true
  | .holding _ => true
  | _ => false

/-- Where a store followed by a `FUTEX_WAKE` stands. -/
inductive WakePhase where
  | storing
  | issued
  | notifying (queue remaining count : Nat)
  | dropping (queue count : Nat)
  | returned (count : Nat)
  deriving DecidableEq

/-- A `FUTEX_WAIT`.  `access` and `timeout` are what `get_as_ref` says of the
two user pointers; `timeout` is `none` for a null pointer. -/
structure Waiter where
  addr : Nat
  expected : BitVec 32
  access : LinuxResult Unit
  timeout : Option (LinuxResult Unit)
  phase : WaitPhase
  overwrittenBy : List Nat

structure Waker where
  addr : Nat
  stored : BitVec 32
  value : Nat
  phase : WakePhase

structure FutexState where
  word : Nat → BitVec 32
  futexes : FutexTable
  waiters : List Waiter
  wakers : List Waker

inductive FutexAction where
  | wait (addr : Nat) (expected : BitVec 32) (access : LinuxResult Unit)
      (timeout : Option (LinuxResult Unit))
  | wake (addr : Nat) (stored : BitVec 32) (value : Nat)
  | stepWait (waiter : Nat)
  | expire (waiter : Nat)
  | stepWake (waker : Nat)

namespace FutexState

def setWait (state : FutexState) (index : Nat) (phase : WaitPhase) :
    FutexState :=
  { state with
    waiters := state.waiters.modify index fun waiter =>
      { waiter with phase := phase } }

def setWake (state : FutexState) (index : Nat) (phase : WakePhase) :
    FutexState :=
  { state with
    wakers := state.wakers.modify index fun waker =>
      { waker with phase := phase } }

def store (state : FutexState) (index : Nat) (waker : Waker) : FutexState :=
  { state with
    word := Function.update state.word waker.addr waker.stored
    waiters := state.waiters.map fun waiter =>
      if waiter.addr = waker.addr ∧ waiter.expected ≠ waker.stored ∧ waiter.phase.decided then
        { waiter with overwrittenBy := index :: waiter.overwrittenBy }
      else waiter }

/-- One step of a `FUTEX_WAIT`. -/
def stepWait (state : FutexState) (index : Nat) (waiter : Waiter) :
    Option FutexState :=
  match waiter.phase with
  | .comparing =>
      match waiter.access with
      | .error error => some (state.setWait index (.returned (.error error)))
      | .ok () =>
          if state.word waiter.addr ≠ waiter.expected then
            some (state.setWait index (.returned (.error .EAGAIN)))
          else some (state.setWait index .compared)
  | .compared =>
      let (queue, futexes) := state.futexes.getOrInsert waiter.addr
      some ({ state with futexes := futexes }.setWait index (.holding queue))
  | .holding queue =>
      match waiter.timeout with
      | some (.error error) =>
          some (state.setWait index (.leaving queue (.error error)))
      | _ =>
          some ({ state with
            futexes := state.futexes.enqueue queue index }.setWait index (.asleep queue))
  | .asleep _ => none
  | .leaving queue result =>
      some ({ state with
        futexes := state.futexes.dropGuard waiter.addr queue }.setWait index (.returned result))
  | .returned _ => none

/-- The time of a `FUTEX_WAIT` with a timeout is over. -/
def expire (state : FutexState) (index : Nat) (waiter : Waiter) :
    Option FutexState :=
  match waiter.phase, waiter.timeout with
  | .asleep queue, some (.ok ()) =>
      some ({ state with
        futexes := state.futexes.remove queue index }.setWait index (.leaving queue (.ok 0)))
  | _, _ => none

def stepWake (state : FutexState) (index : Nat) (waker : Waker) :
    Option FutexState :=
  match waker.phase with
  | .storing => some ((state.store index waker).setWake index .issued)
  | .issued =>
      match state.futexes.get waker.addr with
      | none => some (state.setWake index (.returned 0))
      | some (queue, futexes) =>
          some ({ state with futexes := futexes }.setWake index (.notifying queue waker.value 0))
  | .notifying queue 0 count =>
      some (state.setWake index (.dropping queue count))
  | .notifying queue (remaining + 1) count =>
      match state.futexes.notifyOne queue with
      | none => some (state.setWake index (.dropping queue count))
      | some (task, futexes) =>
          some (({ state with futexes := futexes }.setWait task
            (.leaving queue (.ok 0))).setWake index (.notifying queue remaining (count + 1)))
  | .dropping queue count =>
      some ({ state with
        futexes := state.futexes.dropGuard waker.addr queue }.setWake index (.returned count))
  | .returned _ => none

end FutexState

def futexNext (state : FutexState) : FutexAction → Option FutexState
  | .wait addr expected access timeout =>
      some { state with
        waiters := state.waiters ++ [⟨addr, expected, access, timeout, .comparing, []⟩] }
  | .wake addr stored value =>
      if value = 0 then none
      else
        some { state with
          wakers := state.wakers ++ [⟨addr, stored, value, .storing⟩] }
  | .stepWait index =>
      (state.waiters[index]?).bind fun waiter => state.stepWait index waiter
  | .expire index =>
      (state.waiters[index]?).bind fun waiter => state.expire index waiter
  | .stepWake index =>
      (state.wakers[index]?).bind fun waker => state.stepWake index waker

def futexMachine : Machine FutexState FutexAction where
  start state := state.futexes = .new ∧ state.waiters = [] ∧ state.wakers = []
  next := futexNext

/-! ## Lost wakeups -/

def NoLostWakeup (state : FutexState) : Prop :=
  ∀ (task : Nat) (waiter : Waiter), state.waiters[task]? = some waiter →
    (∃ queue, waiter.phase = .asleep queue) →
      ∀ waker ∈ waiter.overwrittenBy, ∀ call : Waker,
        state.wakers[waker]? = some call → ∀ count, call.phase ≠ .returned count

def WaitPhase.Done : WaitPhase → Prop
  | .leaving _ _ => True
  | .returned _ => True
  | _ => False

/-- When a wake looks up the queue, every waiter its store has overtaken, and
that still waits, sleeps there among as many tasks as the wake notifies. -/
def WakeLooksLate (state : FutexState) : FutexAction → Prop
  | .stepWake index =>
      ∀ call : Waker, state.wakers[index]? = some call → call.phase = .issued →
        ∀ (task : Nat) (waiter : Waiter), state.waiters[task]? = some waiter →
          index ∈ waiter.overwrittenBy → ¬ waiter.phase.Done →
            ∃ queue,
              state.futexes.table call.addr = some queue ∧ waiter.phase = .asleep queue ∧
                task ∈ (state.futexes.tasksOf queue).take call.value
  | _ => True

def Owed (futexes : FutexTable) (task : Nat) (waiting : WaitPhase) : WakePhase → Prop
  | .storing => False
  | .issued => True
  | .notifying queue remaining _ =>
      waiting.Done ∨ (waiting = .asleep queue ∧ task ∈ (futexes.tasksOf queue).take remaining)
  | .dropping _ _ => waiting.Done
  | .returned _ => waiting.Done

def OwedInvariant (state : FutexState) : Prop :=
  ∀ (task : Nat) (waiter : Waiter), state.waiters[task]? = some waiter →
    ∀ waker ∈ waiter.overwrittenBy,
      ∃ call : Waker, state.wakers[waker]? = some call ∧
        Owed state.futexes task waiter.phase call.phase

theorem OwedInvariant.noLostWakeup {state : FutexState} (owed : OwedInvariant state) :
    NoLostWakeup state := by
  rintro task waiter found ⟨queue, isAsleep⟩ waker member call callFound count isReturned
  obtain ⟨known, knownFound, stillOwed⟩ := owed task waiter found waker member
  obtain rfl := Option.some.inj (knownFound.symm.trans callFound)
  rw [isAsleep, isReturned] at stillOwed
  exact stillOwed

structure Keeps (before after : FutexTable) (task : Nat) (was is_ : WaitPhase) : Prop where
  done : was.Done → is_.Done
  asleep :
    ∀ queue, was = .asleep queue →
      is_.Done ∨
        (is_ = .asleep queue ∧
          ∀ count, task ∈ (before.tasksOf queue).take count →
            task ∈ (after.tasksOf queue).take count)

theorem Keeps.of_tasks_eq {before after : FutexTable}
    (sameTasks : ∀ queue, after.tasksOf queue = before.tasksOf queue)
    (task : Nat) (phase : WaitPhase) :
    Keeps before after task phase phase where
  done := id
  asleep queue isAsleep := by
    refine Or.inr ⟨isAsleep, ?_⟩
    intro count ahead
    rw [sameTasks]
    exact ahead

theorem Owed.keeps {before after : FutexTable} {task : Nat} {was is_ : WaitPhase}
    {waking : WakePhase}
    (owed : Owed before task was waking)
    (keeps : Keeps before after task was is_) :
    Owed after task is_ waking := by
  cases waking with
  | storing => exact owed
  | issued => trivial
  | notifying queue remaining count =>
      rcases owed with done | ⟨isAsleep, ahead⟩
      · exact Or.inl (keeps.done done)
      · rcases keeps.asleep queue isAsleep with done | ⟨stillAsleep, place⟩
        · exact Or.inl done
        · exact Or.inr ⟨stillAsleep, place remaining ahead⟩
  | dropping queue count => exact keeps.done owed
  | returned count => exact keeps.done owed

/-- The waiters of a state after a step, compared with those before it: the
old ones keep what they are owed, and new ones are overtaken by nobody. -/
def WaitersKeep (source target : FutexState) : Prop :=
  ∀ (task : Nat) (after : Waiter), target.waiters[task]? = some after →
    after.overwrittenBy = [] ∨
      ∃ before : Waiter, source.waiters[task]? = some before ∧
        after.overwrittenBy = before.overwrittenBy ∧
        Keeps source.futexes target.futexes task before.phase after.phase

variable {source target : FutexState}

theorem OwedInvariant.of_waitersKeep (owed : OwedInvariant source)
    (keep : WaitersKeep source target)
    (sameWakers :
      ∀ (waker : Nat) (call : Waker), source.wakers[waker]? = some call →
        target.wakers[waker]? = some call) :
    OwedInvariant target := by
  intro task after found waker member
  rcases keep task after found with fresh | ⟨before, foundBefore, same, keeps⟩
  · rw [fresh] at member
    cases member
  · rw [same] at member
    obtain ⟨call, callFound, stillOwed⟩ := owed task before foundBefore waker member
    exact ⟨call, sameWakers waker call callFound, stillOwed.keeps keeps⟩

variable {futexes : FutexTable} {index : Nat} {waiter : Waiter}

theorem waitersKeep_setWait {phase : WaitPhase} (found : source.waiters[index]? = some waiter)
    (own : Keeps source.futexes futexes index waiter.phase phase)
    (others : ∀ task waiting, task ≠ index → Keeps source.futexes futexes task waiting waiting) :
    WaitersKeep source ({ source with futexes := futexes }.setWait index phase) := by
  intro task after foundAfter
  right
  rcases Roster.changed_or_same found foundAfter with ⟨rfl, rfl⟩ | ⟨other, before⟩
  · exact ⟨waiter, found, rfl, own⟩
  · exact ⟨after, before, rfl, others task after.phase other⟩

theorem waitersKeep_awake {phase : WaitPhase} (found : source.waiters[index]? = some waiter)
    (awake : ∀ queue, waiter.phase ≠ .asleep queue)
    (done : waiter.phase.Done → phase.Done)
    (place :
      ∀ {task asked count : Nat},
        task ∈ (source.futexes.tasksOf asked).take count →
          task ∈ (futexes.tasksOf asked).take count) :
    WaitersKeep source ({ source with futexes := futexes }.setWait index phase) := by
  apply waitersKeep_setWait found
  · exact ⟨done, fun queue isAsleep => (awake queue isAsleep).elim⟩
  · intro task waiting _
    refine ⟨id, ?_⟩
    intro asked isAsleep
    exact Or.inr ⟨isAsleep, fun count ahead => place ahead⟩

theorem waitersKeep_stepWait (found : source.waiters[index]? = some waiter)
    (stepped : source.stepWait index waiter = some target) :
    WaitersKeep source target ∧ target.wakers = source.wakers := by
  unfold FutexState.stepWait at stepped
  cases phase : waiter.phase with
  | comparing =>
      have keep (next : WaitPhase) : WaitersKeep source (source.setWait index next) :=
        waitersKeep_awake found (by simp [phase]) (by simp [phase, WaitPhase.Done]) id
      simp only [phase] at stepped
      split at stepped
      · obtain rfl := Option.some.inj stepped
        exact ⟨keep _, rfl⟩
      split at stepped
      · obtain rfl := Option.some.inj stepped
        exact ⟨keep _, rfl⟩
      · obtain rfl := Option.some.inj stepped
        exact ⟨keep _, rfl⟩
  | compared =>
      simp only [phase] at stepped
      obtain rfl := Option.some.inj stepped
      refine ⟨?_, rfl⟩
      apply waitersKeep_awake found
      · simp [phase]
      · simp [phase, WaitPhase.Done]
      · intro task asked count ahead
        rw [FutexTable.tasksOf_getOrInsert]
        exact ahead
  | holding queue =>
      simp only [phase] at stepped
      split at stepped
      · obtain rfl := Option.some.inj stepped
        refine ⟨?_, rfl⟩
        exact waitersKeep_awake found (by simp [phase]) (by simp [phase, WaitPhase.Done]) id
      · obtain rfl := Option.some.inj stepped
        refine ⟨?_, rfl⟩
        exact waitersKeep_awake found (by simp [phase])
            (by simp [phase, WaitPhase.Done]) FutexTable.mem_take_enqueue
  | asleep queue =>
      simp [phase] at stepped
  | leaving queue result =>
      simp only [phase] at stepped
      obtain rfl := Option.some.inj stepped
      refine ⟨?_, rfl⟩
      apply waitersKeep_awake found
      · simp [phase]
      · exact fun _ => trivial
      · intro task asked count ahead
        rw [FutexTable.tasksOf_dropGuard]
        exact ahead
  | returned result =>
      simp [phase] at stepped

theorem waitersKeep_expire (found : source.waiters[index]? = some waiter)
    (stepped : source.expire index waiter = some target) :
    WaitersKeep source target ∧ target.wakers = source.wakers := by
  unfold FutexState.expire at stepped
  split at stepped
  · rename_i queue isAsleep _
    obtain rfl := Option.some.inj stepped
    refine ⟨waitersKeep_setWait found ?_ ?_, rfl⟩
    · exact ⟨fun _ => trivial, fun _ _ => Or.inl trivial⟩
    · intro task waiting different
      refine ⟨id, ?_⟩
      intro slept stillAsleep
      exact Or.inr ⟨stillAsleep, fun count ahead =>
        FutexTable.mem_take_remove ahead different⟩
  · cases stepped

variable {waker : Waker}

theorem OwedInvariant.of_setWake {phase : WakePhase} (owed : OwedInvariant source)
    (found : source.wakers[index]? = some waker)
    (keep : WaitersKeep source target)
    (sameWakers : target.wakers = source.wakers)
    (own :
      ∀ (task : Nat) (before after : Waiter), source.waiters[task]? = some before →
        target.waiters[task]? = some after →
        index ∈ before.overwrittenBy →
        Keeps source.futexes target.futexes task before.phase after.phase →
        Owed source.futexes task before.phase waker.phase →
          Owed target.futexes task after.phase phase) :
    OwedInvariant (target.setWake index phase) := by
  intro task after foundAfter overtaker member
  have foundTarget : target.waiters[task]? = some after := foundAfter
  rcases keep task after foundTarget with
    fresh | ⟨before, foundBefore, same, keeps⟩
  · rw [fresh] at member
    cases member
  · rw [same] at member
    obtain ⟨call, callFound, stillOwed⟩ := owed task before foundBefore overtaker member
    simp only [FutexState.setWake, sameWakers]
    by_cases isIndex : overtaker = index
    · subst isIndex
      obtain rfl := Option.some.inj (callFound.symm.trans found)
      rw [List.getElem?_modify_eq, found]
      exact ⟨_, rfl, own task before after foundBefore foundTarget member keeps stillOwed⟩
    · rw [List.getElem?_modify_ne _ _ (Ne.symm isIndex)]
      exact ⟨call, callFound, stillOwed.keeps keeps⟩

theorem OwedInvariant.store (owed : OwedInvariant source)
    (found : source.wakers[index]? = some waker) :
    OwedInvariant ((source.store index waker).setWake index .issued) := by
  intro task after foundAfter overtaker member
  simp only [FutexState.setWake, FutexState.store] at foundAfter ⊢
  rw [List.getElem?_map] at foundAfter
  obtain ⟨before, foundBefore, isAfter⟩ := Option.map_eq_some_iff.mp foundAfter
  have samePhase : after.phase = before.phase := by
    rw [← isAfter]
    split <;> rfl
  have fromBefore :
      overtaker ≠ index → overtaker ∈ before.overwrittenBy := by
    intro different
    rw [← isAfter] at member
    split at member
    · exact (List.mem_cons.mp member).resolve_left different
    · exact member
  by_cases isIndex : overtaker = index
  · subst isIndex
    rw [List.getElem?_modify_eq, found]
    exact ⟨_, rfl, trivial⟩
  · obtain ⟨call, callFound, stillOwed⟩ :=
      owed task before foundBefore overtaker (fromBefore isIndex)
    rw [List.getElem?_modify_ne _ _ (Ne.symm isIndex), samePhase]
    exact ⟨call, callFound, stillOwed⟩

theorem waitersKeep_of_tasks_eq (sameWaiters : target.waiters = source.waiters)
    (sameTasks : ∀ queue, target.futexes.tasksOf queue = source.futexes.tasksOf queue) :
    WaitersKeep source target := by
  intro task after found
  rw [sameWaiters] at found
  exact Or.inr ⟨after, found, rfl, Keeps.of_tasks_eq sameTasks task _⟩

variable {queue : Nat}

theorem waitersKeep_notifyOne {woken : Nat}
    (notified : source.futexes.notifyOne queue = some (woken, futexes)) :
    WaitersKeep source
      ({ source with futexes := futexes }.setWait woken (.leaving queue (.ok 0))) := by
  obtain ⟨wasFirst, others⟩ := FutexTable.notifyOne_eq_some notified
  intro task after foundAfter
  right
  obtain ⟨before, foundBefore, ⟨rfl, rfl⟩ | ⟨isWoken, rfl⟩⟩ :=
    Roster.exists_before_modify foundAfter
  · exact ⟨before, foundBefore, rfl, fun _ => trivial, fun _ _ => Or.inl trivial⟩
  · refine ⟨after, foundBefore, rfl, id, ?_⟩
    intro asked isAsleep
    refine Or.inr ⟨isAsleep, ?_⟩
    intro count ahead
    by_cases isQueue : asked = queue
    · subst isQueue
      rw [wasFirst] at ahead
      cases count with
      | zero => cases ahead
      | succ count =>
          rw [List.take_succ_cons] at ahead
          have later := (List.mem_cons.mp ahead).resolve_left isWoken
          exact List.take_subset_take_left _ (Nat.le_succ _) later
    · have same := others asked isQueue
      rw [← same] at ahead
      exact ahead

theorem OwedInvariant.lookup (owed : OwedInvariant source)
    (found : source.wakers[index]? = some waker)
    (isIssued : waker.phase = .issued)
    (late : WakeLooksLate source (.stepWake index))
    (stepped : source.stepWake index waker = some target) :
    OwedInvariant target := by
  have waiting := late waker found isIssued
  simp only [FutexState.stepWake, isIssued] at stepped
  cases looked : source.futexes.get waker.addr with
  | none =>
      have missing : source.futexes.table waker.addr = none := Option.map_eq_none_iff.mp looked
      simp only [looked, Option.some.injEq] at stepped
      subst stepped
      apply owed.of_setWake found (waitersKeep_of_tasks_eq rfl fun _ => rfl) rfl
      intro task before after foundBefore foundAfter member keeps _
      by_contra stillWaits
      obtain ⟨queue, present, -⟩ :=
        waiting task before foundBefore member (fun done => stillWaits (keeps.done done))
      rw [missing] at present
      cases present
  | some got =>
      obtain ⟨queue, futexes⟩ := got
      have sameTasks := FutexTable.tasksOf_get looked
      obtain ⟨stored, present, isGot⟩ := Option.map_eq_some_iff.mp looked
      obtain ⟨rfl, -⟩ := Prod.mk.inj isGot
      simp only [looked, Option.some.injEq] at stepped
      subst stepped
      refine owed.of_setWake found (waitersKeep_of_tasks_eq ?_ sameTasks) ?_ ?_
      · rfl
      · rfl
      intro task before after foundBefore foundAfter member keeps _
      obtain rfl := Option.some.inj (foundBefore.symm.trans foundAfter)
      by_cases done : before.phase.Done
      · exact Or.inl done
      · obtain ⟨asked, alsoPresent, isAsleep, ahead⟩ := waiting task before foundBefore member done
        obtain rfl := Option.some.inj (present.symm.trans alsoPresent)
        refine Or.inr ⟨isAsleep, ?_⟩
        rw [sameTasks]
        exact ahead

theorem Owed.done_of_nobody {task remaining count : Nat} {waiting : WaitPhase}
    (owed : Owed futexes task waiting (.notifying queue remaining count))
    (nobody : (futexes.tasksOf queue).take remaining = []) :
    waiting.Done := by
  rcases owed with done | ⟨_, ahead⟩
  · exact done
  · rw [nobody] at ahead
    cases ahead

theorem OwedInvariant.notify {remaining count woken : Nat} (owed : OwedInvariant source)
    (found : source.wakers[index]? = some waker)
    (isNotifying : waker.phase = .notifying queue (remaining + 1) count)
    (notified : source.futexes.notifyOne queue = some (woken, futexes)) :
    OwedInvariant
      (({ source with futexes := futexes }.setWait woken
        (.leaving queue (.ok 0))).setWake index (.notifying queue remaining (count + 1))) := by
  have wasFirst := (FutexTable.notifyOne_eq_some notified).1
  apply owed.of_setWake found (waitersKeep_notifyOne notified) rfl
  intro task before after foundBefore foundAfter _ keeps promised
  rw [isNotifying] at promised
  rcases promised with done | ⟨isAsleep, ahead⟩
  · exact Or.inl (keeps.done done)
  rcases keeps.asleep queue isAsleep with done | ⟨stillAsleep, _⟩
  · exact Or.inl done
  refine Or.inr ⟨stillAsleep, ?_⟩
  rw [wasFirst, List.take_succ_cons] at ahead
  refine (List.mem_cons.mp ahead).resolve_left ?_
  rintro rfl
  simp only [FutexState.setWait, List.getElem?_modify_eq, foundBefore] at foundAfter
  obtain rfl := Option.some.inj foundAfter
  cases stillAsleep

theorem OwedInvariant.stopNotifying {remaining count : Nat} (owed : OwedInvariant source)
    (found : source.wakers[index]? = some waker)
    (isNotifying : waker.phase = .notifying queue remaining count)
    (nobody : (source.futexes.tasksOf queue).take remaining = []) :
    OwedInvariant (source.setWake index (.dropping queue count)) := by
  apply owed.of_setWake found (waitersKeep_of_tasks_eq rfl fun _ => rfl) rfl
  intro task before after _ _ _ keeps promised
  rw [isNotifying] at promised
  exact keeps.done (promised.done_of_nobody nobody)

theorem OwedInvariant.stepWake (owed : OwedInvariant source)
    (found : source.wakers[index]? = some waker)
    (late : WakeLooksLate source (.stepWake index))
    (stepped : source.stepWake index waker = some target) :
    OwedInvariant target := by
  cases phase : waker.phase with
  | storing =>
      simp only [FutexState.stepWake, phase, Option.some.injEq] at stepped
      subst stepped
      exact owed.store found
  | issued =>
      exact owed.lookup found phase late stepped
  | notifying queue remaining count =>
      cases remaining with
      | zero =>
          simp only [FutexState.stepWake, phase, Option.some.injEq] at stepped
          subst stepped
          exact owed.stopNotifying found phase List.take_zero
      | succ remaining =>
          simp only [FutexState.stepWake, phase] at stepped
          cases notified : source.futexes.notifyOne queue with
          | none =>
              have empty := FutexTable.notifyOne_eq_none.mp notified
              simp only [notified, Option.some.injEq] at stepped
              subst stepped
              apply owed.stopNotifying found phase
              rw [empty, List.take_nil]
          | some woke =>
              simp only [notified, Option.some.injEq] at stepped
              subst stepped
              exact owed.notify found phase notified
  | dropping queue count =>
      simp only [FutexState.stepWake, phase, Option.some.injEq] at stepped
      subst stepped
      refine owed.of_setWake found
        (waitersKeep_of_tasks_eq ?_ (FutexTable.tasksOf_dropGuard _ waker.addr queue)) ?_ ?_
      · rfl
      · rfl
      intro task before after _ _ _ keeps promised
      rw [phase] at promised
      exact keeps.done promised
  | returned count =>
      simp [FutexState.stepWake, phase] at stepped

theorem OwedInvariant.next {action : FutexAction} (owed : OwedInvariant source)
    (late : WakeLooksLate source action)
    (stepped : futexNext source action = some target) :
    OwedInvariant target := by
  cases action with
  | wait addr expected access timeout =>
      obtain rfl := Option.some.inj stepped
      refine OwedInvariant.of_waitersKeep owed ?_ (fun _ _ found => found)
      intro task after found
      rcases Roster.old_or_added found with old | ⟨-, rfl⟩
      · exact Or.inr ⟨after, old, rfl, Keeps.of_tasks_eq (fun _ => rfl) task _⟩
      · exact Or.inl rfl
  | wake addr stored value =>
      simp only [futexNext] at stepped
      split at stepped
      · cases stepped
      · obtain rfl := Option.some.inj stepped
        refine owed.of_waitersKeep (waitersKeep_of_tasks_eq rfl fun _ => rfl) ?_
        intro waker call found
        exact Roster.getElem?_append_of_some found _
  | stepWait index =>
      obtain ⟨waiter, found, moved⟩ := Option.bind_eq_some_iff.mp stepped
      obtain ⟨keep, sameWakers⟩ := waitersKeep_stepWait found moved
      exact owed.of_waitersKeep keep (by simp [sameWakers])
  | expire index =>
      obtain ⟨waiter, found, moved⟩ := Option.bind_eq_some_iff.mp stepped
      obtain ⟨keep, sameWakers⟩ := waitersKeep_expire found moved
      exact owed.of_waitersKeep keep (by simp [sameWakers])
  | stepWake index =>
      obtain ⟨waker, found, moved⟩ := Option.bind_eq_some_iff.mp stepped
      exact owed.stepWake found late moved

/-- In every run in which each wake looks up its queue after the waiters it
has overtaken went to sleep there, no wakeup is lost. -/
theorem futex_no_lost_wakeup_of_late (state : FutexState)
    (reached : futexMachine.ReachableWithin WakeLooksLate state) :
    NoLostWakeup state := by
  apply OwedInvariant.noLostWakeup
  apply Machine.ReachableWithin.invariant _ _ reached
  · rintro start ⟨-, noWaiters, -⟩ task waiter found
    simp [noWaiters] at found
  · intro source action target _ owed late stepped
    exact owed.next late stepped

def idleFutexes : FutexState := ⟨fun _ => 0, .new, [], []⟩

def lateWake : List FutexAction :=
  [.wait 64 0 (.ok ()) none, .stepWait 0, .stepWait 0, .wake 64 1 1,
    .stepWake 0, .stepWait 0, .stepWake 0, .stepWake 0, .stepWake 0,
    .stepWake 0]

private theorem wakeLooksLate_of_not_issued {state : FutexState} {index : Nat}
    (notIssued : (state.wakers[index]?).map Waker.phase ≠ some .issued) :
    WakeLooksLate state (.stepWake index) := by
  intro call found isIssued
  rw [found, Option.map_some, isIssued] at notIssued
  exact (notIssued rfl).elim

private theorem lateWake_meets :
    futexMachine.Meets WakeLooksLate idleFutexes lateWake := by
  have late {source : FutexState} := @wakeLooksLate_of_not_issued source 0
  refine .cons trivial rfl (.cons trivial rfl (.cons trivial rfl
    (.cons trivial rfl (.cons (late (by decide)) rfl
      (.cons trivial rfl (.cons ?_ rfl (.cons (late (by decide)) rfl
        (.cons (late (by decide)) rfl (.cons (late (by decide)) rfl trivial)))))))))
  intro call called _
  obtain rfl := Option.some.inj called
  rintro (_ | task) waiter found _ _
  · obtain rfl := Option.some.inj found
    exact ⟨0, rfl, rfl, List.mem_singleton_self 0⟩
  · cases found

theorem futex_no_lost_wakeup_lateWake :
    ∃ state, futexMachine.ReachableWithin WakeLooksLate state ∧
      (state.waiters[0]?).map Waiter.overwrittenBy = some [0] ∧
      (state.wakers[0]?).map Waker.phase = some (.returned 1) ∧
      NoLostWakeup state := by
  obtain ⟨state, reached, observed⟩ :=
    futexMachine.exists_reachableWithin_of_exec lateWake (fun state =>
        decide
          ((state.waiters[0]?).map Waiter.overwrittenBy = some [0] ∧
            (state.wakers[0]?).map Waker.phase = some (.returned 1)))
      ⟨rfl, rfl, rfl⟩ lateWake_meets (by decide)
  obtain ⟨overtaken, isReturned⟩ := of_decide_eq_true observed
  exact ⟨state, reached, overtaken, isReturned, futex_no_lost_wakeup_of_late state reached⟩

/-- The wake comes between the comparison of the waiter and its lookup: it
finds no queue, and the waiter sleeps on. -/
theorem futex_wake_before_enqueue_lost :
    ∃ state, futexMachine.Reachable state ∧ ¬ NoLostWakeup state := by
  obtain ⟨state, reached, observed⟩ :=
    @Machine.exists_reachable_of_exec _ _ futexMachine idleFutexes
      [.wait 64 0 (.ok ()) none, .stepWait 0, .wake 64 1 1, .stepWake 0,
        .stepWake 0, .stepWait 0, .stepWait 0]
      (fun state =>
        decide
          ((state.waiters[0]?).map Waiter.phase = some (.asleep 0) ∧
            (state.waiters[0]?).map Waiter.overwrittenBy = some [0] ∧
            (state.wakers[0]?).map Waker.phase = some (.returned 0)))
      ⟨rfl, rfl, rfl⟩ (by decide)
  obtain ⟨waiting, overwritten, waking⟩ := of_decide_eq_true observed
  obtain ⟨waiter, found, isAsleep⟩ := Option.map_eq_some_iff.mp waiting
  obtain ⟨call, called, isReturned⟩ := Option.map_eq_some_iff.mp waking
  rw [found, Option.map_some, Option.some.injEq] at overwritten
  refine ⟨state, reached, fun noLoss => ?_⟩
  refine noLoss 0 waiter found ⟨0, isAsleep⟩ 0 ?_ call called 0 isReturned
  rw [overwritten]
  exact List.mem_singleton_self 0

end Vegar.Task

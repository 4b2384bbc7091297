import Mathlib.Algebra.GroupWithZero.Nat
import Mathlib.Algebra.Order.BigOperators.Group.List
import Mathlib.Algebra.Ring.Int.Defs
import Vegar.Lib.Roster
import Vegar.Task.FutexCalls

/-!
# Wake-ups as tokens

Runs of `FUTEX_WAIT` and `FUTEX_WAKE` at one address.  Every notification
hands one token from a call that wakes to a call that waits.  A wait whose
time is over returns `Ok(0)` without a token.
-/

namespace Vegar.Task

open Vegar.Lib

/-! ## What is claimed of a run -/

namespace FutexCall

/-- A `FUTEX_WAIT` that returned `Ok(0)`. -/
def tookToken (call : FutexCall) : Bool :=
  call.args.command == futexWait && call.phase == .returned (.ok 0)

/-- What a `FUTEX_WAKE` returned. -/
def returnedCount (call : FutexCall) : Nat :=
  match call.phase with
  | .returned (.ok count) =>
      if call.args.command = futexWake then count else 0
  | _ => 0

/-- What a `FUTEX_WAKE` that has not returned has counted so far. -/
def inFlight (call : FutexCall) : Nat :=
  if call.args.command = futexWake then
    match call.phase with
    | .notifying _ _ _ count => count
    | .notified _ _ count => count
    | .dropping _ (.ok count) => count
    | _ => 0
  else 0

/-- A `FUTEX_WAIT` that is about to return `Ok(0)`. -/
def takesToken (call : FutexCall) : Prop :=
  call.args.command = futexWait ∧ call.phase = .dropping [] (.ok 0)

instance (call : FutexCall) : Decidable call.takesToken := inferInstanceAs (Decidable (_ ∧ _))

end FutexCall

def WaitsAndWakes (addr : Nat) : SysFutexAction → Prop
  | .sysFutex args =>
      args.uaddr = addr ∧ (args.command = futexWait ∨ args.command = futexWake)
  | _ => True

structure WaitsWereWoken (actions : List SysFutexAction) (state : SysFutexState) : Prop where
  covered : state.calls.countP FutexCall.tookToken ≤ (state.calls.map FutexCall.returnedCount).sum
  timedOut :
    ∀ index call result, .expire index ∈ actions →
      state.calls[index]? = some call → call.phase = .returned result →
        ∃ error, result = .error error

/-- No time is over, and a wait returns `Ok(0)` only while no wake that has
counted a task is on its way. -/
def HandsOver (state : SysFutexState) : SysFutexAction → Prop
  | .expire _ => False
  | .step index =>
      ∀ call ∈ state.calls[index]?, call.takesToken → ∀ waker ∈ state.calls, waker.inFlight = 0
  | _ => True

instance (addr : Nat) (action : SysFutexAction) : Decidable (WaitsAndWakes addr action) :=
  match action with
  | .sysFutex _ => inferInstanceAs (Decidable (_ ∧ _))
  | .store _ _ => .isTrue trivial
  | .step _ => .isTrue trivial
  | .expire _ => .isTrue trivial

instance (state : SysFutexState) (action : SysFutexAction) : Decidable (HandsOver state action) :=
  match action with
  | .step index =>
      inferInstanceAs
        (Decidable
          (∀ call ∈ state.calls[index]?, call.takesToken →
            ∀ waker ∈ state.calls, waker.inFlight = 0))
  | .store _ _ => .isTrue trivial
  | .sysFutex _ => .isTrue trivial
  | .expire _ => .isFalse id

/-! ## The sleeping tasks -/

namespace FutexTable

def sleeping (futexes : FutexTable) : Multiset Nat := ↑(futexes.queues.flatMap WaitQueue.tasks)

section Sleeping

variable (futexes : FutexTable)

theorem sleeping_setStrong (queue : Nat) (change : Nat → Nat) :
    (futexes.setStrong queue change).sleeping = futexes.sleeping := by
  cases found : futexes.queues[queue]? with
  | none =>
      have missing := List.getElem?_eq_none_iff.mp found
      rw [setStrong, sleeping, List.modify_eq_self missing, sleeping]
  | some entry =>
      obtain ⟨rest, whole, changed⟩ := exists_rest_flatMap WaitQueue.tasks found
      rw [setStrong, sleeping, changed, sleeping, whole]

theorem sleeping_getOrInsert (addr : Nat) :
    (futexes.getOrInsert addr).2.sleeping = futexes.sleeping := by
  unfold getOrInsert
  split
  · exact futexes.sleeping_setStrong _ _
  · rw [sleeping, List.flatMap_append, sleeping]
    simp

theorem sleeping_dropBody (key queue : Nat) :
    (futexes.dropBody key queue).sleeping = futexes.sleeping := by
  unfold dropBody
  split
  · split
    · rfl
    · exact sleeping_setStrong { futexes with table := _ } _ _
  · rfl

theorem sleeping_enqueue (queue task : Nat) :
    (futexes.enqueue queue task).sleeping = futexes.sleeping ∨
      (futexes.enqueue queue task).sleeping = task ::ₘ futexes.sleeping := by
  cases found : futexes.queues[queue]? with
  | none =>
      have missing := List.getElem?_eq_none_iff.mp found
      refine Or.inl ?_
      rw [enqueue, setTasks, sleeping, List.modify_eq_self missing, sleeping]
  | some entry =>
      obtain ⟨rest, whole, changed⟩ := exists_rest_flatMap WaitQueue.tasks found
      refine Or.inr ?_
      rw [enqueue, setTasks, sleeping, changed, sleeping, whole,
        ← Multiset.coe_add, add_assoc, add_left_comm, Multiset.coe_singleton,
        Multiset.singleton_add]

end Sleeping

theorem sleeping_get {futexes got : FutexTable} {addr queue : Nat}
    (isGot : futexes.get addr = some (queue, got)) :
    got.sleeping = futexes.sleeping := by
  obtain ⟨stored, -, isAfter⟩ := Option.map_eq_some_iff.mp isGot
  obtain ⟨-, rfl⟩ := Prod.mk.inj isAfter
  exact futexes.sleeping_setStrong _ _

theorem sleeping_notifyOne {futexes after : FutexTable} {queue task : Nat}
    (woken : futexes.notifyOne queue = some (task, after)) :
    futexes.sleeping = task ::ₘ after.sleeping := by
  unfold notifyOne at woken
  split at woken
  · cases woken
  · next first others tasks =>
      obtain ⟨rfl, rfl⟩ := Prod.mk.inj (Option.some.inj woken)
      cases found : futexes.queues[queue]? with
      | none =>
          rw [tasksOf, found] at tasks
          cases tasks
      | some entry =>
          rw [tasksOf, found] at tasks
          have isFirst : entry.tasks = first :: others := tasks
          obtain ⟨rest, whole, changed⟩ := exists_rest_flatMap WaitQueue.tasks found
          rw [setTasks, sleeping, whole, sleeping, changed, isFirst,
            List.tail_cons, ← Multiset.cons_coe, Multiset.cons_add]

end FutexTable

/-! ## The tokens of one call -/

def FitsResult (command : BitVec 32) (result : LinuxResult Nat) : Prop :=
  command = futexWait ∧ (result = .ok 0 ∨ ∃ error, result = .error error) ∨
    command = futexWake ∧ ∃ count, result = .ok count

def FutexPhase.Fits (command : BitVec 32) : FutexPhase → Prop
  | .entered => command = futexWait ∨ command = futexWake
  | .compared => command = futexWait
  | .found _ => False
  | .holding _ => command = futexWait
  | .asleep _ => command = futexWait
  | .notifying _ wq2 _ _ => command = futexWake ∧ wq2 = none
  | .notified _ wq2 _ => command = futexWake ∧ wq2 = none
  | .dropping _ result => FitsResult command result
  | .returned result => FitsResult command result

namespace FutexCall

def Fits (call : FutexCall) : Prop := call.phase.Fits call.args.command

/-- A `FUTEX_WAIT` that has its token and has not returned. -/
def leaving (call : FutexCall) : Nat :=
  match call.phase with
  | .dropping _ (.ok _) => if call.args.command = futexWait then 1 else 0
  | _ => 0

def surplus (call : FutexCall) : Int := (if call.tookToken then 1 else 0) - call.returnedCount

def balance (call : FutexCall) : Int := call.surplus + (call.leaving - call.inFlight)

end FutexCall

theorem futexWait_ne_futexWake : futexWait ≠ futexWake := by
  decide

section Calls

variable {args : FutexArgs}

theorem surplus_of_running {phase : FutexPhase} (running : ∀ result, phase ≠ .returned result) :
    FutexCall.surplus ⟨args, phase⟩ = 0 := by
  cases phase with
  | returned result => exact absurd rfl (running result)
  | _ =>
      simp [FutexCall.surplus, FutexCall.tookToken, FutexCall.returnedCount]

theorem balance_of_wait (isWait : args.command = futexWait) (phase : FutexPhase) :
    FutexCall.balance ⟨args, phase⟩ =
      match phase with
      | .dropping _ (.ok _) => 1
      | .returned (.ok 0) => 1
      | _ => 0 := by
  have notWake : args.command ≠ futexWake := by
    rw [isWait]
    exact futexWait_ne_futexWake
  cases phase with
  | dropping guards result =>
      cases result <;>
        simp [FutexCall.balance, FutexCall.surplus, FutexCall.tookToken,
          FutexCall.returnedCount, FutexCall.leaving, FutexCall.inFlight,
          isWait, futexWait_ne_futexWake]
  | returned result =>
      rcases result with error | _ | count <;>
        simp [FutexCall.balance, FutexCall.surplus, FutexCall.tookToken,
          FutexCall.returnedCount, FutexCall.leaving, FutexCall.inFlight,
          isWait, futexWait_ne_futexWake]
  | _ =>
      simp [FutexCall.balance, FutexCall.surplus, FutexCall.tookToken,
        FutexCall.returnedCount, FutexCall.leaving, FutexCall.inFlight,
        notWake]

theorem balance_of_wake (isWake : args.command = futexWake) (phase : FutexPhase) :
    FutexCall.balance ⟨args, phase⟩ =
      match phase with
      | .notifying _ _ _ count => -(count : Int)
      | .notified _ _ count => -(count : Int)
      | .dropping _ (.ok count) => -(count : Int)
      | .returned (.ok count) => -(count : Int)
      | _ => 0 := by
  have notWait : futexWake ≠ futexWait := futexWait_ne_futexWake.symm
  cases phase with
  | dropping guards result =>
      cases result <;>
        simp [FutexCall.balance, FutexCall.surplus, FutexCall.tookToken,
          FutexCall.returnedCount, FutexCall.leaving, FutexCall.inFlight,
          isWake, notWait]
  | returned result =>
      cases result <;>
        simp [FutexCall.balance, FutexCall.surplus, FutexCall.tookToken,
          FutexCall.returnedCount, FutexCall.leaving, FutexCall.inFlight,
          isWake, notWait]
  | _ =>
      simp [FutexCall.balance, FutexCall.surplus, FutexCall.tookToken,
        FutexCall.returnedCount, FutexCall.leaving, FutexCall.inFlight,
        isWake, notWait]

theorem balance_of_result {result : LinuxResult Nat} (fits : FitsResult args.command result)
    (guards : List WaitQueueGuard) :
    FutexCall.balance ⟨args, .dropping guards result⟩ =
      FutexCall.balance ⟨args, .returned result⟩ := by
  rcases fits with ⟨isWait, rfl | ⟨error, rfl⟩⟩ | ⟨isWake, count, rfl⟩
  · rw [balance_of_wait isWait, balance_of_wait isWait]
    rfl
  · rw [balance_of_wait isWait, balance_of_wait isWait]
  · rw [balance_of_wake isWake, balance_of_wake isWake]

end Calls

inductive TokenStep (futexes : FutexTable) (task : Nat) (args : FutexArgs)
    (phase : FutexPhase) (effect : FutexEffect) : Prop
  | quiet (wakesNobody : effect.woken = none)
      (sameSleeping : effect.futexes.sleeping = futexes.sleeping)
      (sameBalance : FutexCall.balance ⟨args, effect.phase⟩ = FutexCall.balance ⟨args, phase⟩)
  | sleeps (wakesNobody : effect.woken = none) (isAsleep : ∃ wq, effect.phase = .asleep wq)
      (moreSleeping :
        effect.futexes.sleeping = futexes.sleeping ∨
          effect.futexes.sleeping = task ::ₘ futexes.sleeping)
      (sameBalance : FutexCall.balance ⟨args, effect.phase⟩ = FutexCall.balance ⟨args, phase⟩)
  | wakes {sleeper : Nat} (isWoken : effect.woken = some sleeper)
      (lessSleeping : futexes.sleeping = sleeper ::ₘ effect.futexes.sleeping)
      (oneLess : FutexCall.balance ⟨args, effect.phase⟩ = FutexCall.balance ⟨args, phase⟩ - 1)

section Steps

variable {word : Nat → BitVec 32} {futexes : FutexTable} {task : Nat}
  {args : FutexArgs} {phase : FutexPhase} {effect : FutexEffect}

theorem phase_afterCompare (compared : LinuxResult Unit) :
    (afterCompare futexes compared).phase = .compared ∨
      ∃ error, (afterCompare futexes compared).phase = .returned (.error error) := by
  cases compared with
  | error error => exact Or.inr ⟨error, rfl⟩
  | ok done => exact Or.inl rfl

theorem phase_futexEnter_of_wait (isWait : args.command = futexWait) :
    (futexEnter word futexes args).phase = .compared ∨
      ∃ error, (futexEnter word futexes args).phase = .returned (.error error) := by
  rw [futexEnter, if_pos isWait]
  exact phase_afterCompare _

theorem result_of_futexEnter {result : LinuxResult Nat}
    (fits : FutexPhase.entered.Fits args.command)
    (entered : futexEnter word futexes args = .goto futexes (.returned result)) :
    args.command = futexWait ∧ (∃ error, result = .error error) ∨
      args.command = futexWake ∧ result = .ok 0 := by
  rcases fits with isWait | isWake
  · refine Or.inl ⟨isWait, ?_⟩
    have phases := @phase_futexEnter_of_wait word futexes args isWait
    rw [entered] at phases
    rcases phases with isCompared | ⟨error, isError⟩
    · cases isCompared
    · injection isError with sameResult
      exact ⟨error, sameResult⟩
  · refine Or.inr ⟨isWake, ?_⟩
    have notWait : args.command ≠ futexWait := by
      rw [isWake]
      exact futexWait_ne_futexWake.symm
    rw [futexEnter, if_neg notWait, if_pos isWake] at entered
    have samePhase := congrArg FutexEffect.phase entered
    cases isGot : futexes.get args.uaddr with
    | none =>
        rw [isGot] at samePhase
        injection samePhase with sameResult
        exact sameResult.symm
    | some got =>
        rw [isGot] at samePhase
        cases samePhase

theorem TokenStep.of_futexStep (fits : phase.Fits args.command)
    (stepped : futexStep word futexes task args phase = some effect) :
    effect.phase.Fits args.command ∧
      TokenStep futexes task args phase effect := by
  have moved := FutexMove.of_futexStep stepped
  cases moved with
  | compares notWake =>
      have isWait : args.command = futexWait := fits.resolve_right notWake
      refine ⟨isWait, .quiet rfl rfl ?_⟩
      rw [balance_of_wait isWait, balance_of_wait isWait]
      rfl
  | refuses result noQueue =>
      rcases result_of_futexEnter fits (Option.some.inj stepped) with
        ⟨isWait, error, rfl⟩ | ⟨isWake, rfl⟩
      · refine ⟨Or.inl ⟨isWait, Or.inr ⟨error, rfl⟩⟩, .quiet rfl rfl ?_⟩
        rw [balance_of_wait isWait, balance_of_wait isWait]
        rfl
      · refine ⟨Or.inr ⟨isWake, 0, rfl⟩, .quiet rfl rfl ?_⟩
        rw [balance_of_wake isWake, balance_of_wake isWake]
        rfl
  | getsWoken isGot =>
      have isWake : args.command = futexWake := by
        rcases fits with isWait | isWake
        · have phases := @phase_futexEnter_of_wait word futexes args isWait
          rw [Option.some.inj stepped] at phases
          rcases phases with isCompared | ⟨error, isError⟩
          · cases isCompared
          · cases isError
        · exact isWake
      refine ⟨⟨isWake, rfl⟩, .quiet rfl (FutexTable.sleeping_get isGot) ?_⟩
      rw [balance_of_wake isWake, balance_of_wake isWake]
      rfl
  | inserts isWait =>
      refine ⟨isWait, .quiet rfl (futexes.sleeping_getOrInsert _) ?_⟩
      rw [balance_of_wait isWait, balance_of_wait isWait]
  | misses =>
      have isWait : args.command = futexWait := fits
      rw [futexStep, futexLookUp, if_pos isWait] at stepped
      cases congrArg FutexEffect.phase (Option.some.inj stepped)
  | getsRequeued isGot =>
      have isWait : args.command = futexWait := fits
      rw [futexStep, futexLookUp, if_pos isWait] at stepped
      cases congrArg FutexEffect.phase (Option.some.inj stepped)
  | insertsUnused => exact fits.elim
  | insertsTarget wq => exact fits.elim
  | rejectsTimeout wq error =>
      refine ⟨Or.inl ⟨fits, Or.inr ⟨error, rfl⟩⟩, .quiet rfl rfl ?_⟩
      rw [balance_of_wait fits, balance_of_wait fits]
      rfl
  | sleeps wq =>
      refine ⟨fits, .sleeps rfl ⟨wq, rfl⟩ (futexes.sleeping_enqueue wq task) ?_⟩
      rw [balance_of_wait fits, balance_of_wait fits]
      rfl
  | stops wq wq2 remaining count noneLeft =>
      refine ⟨fits, .quiet rfl rfl ?_⟩
      rw [balance_of_wake fits.1, balance_of_wake fits.1]
      rfl
  | notifies wq2 remaining count isWoken =>
      refine ⟨fits, .wakes rfl (FutexTable.sleeping_notifyOne isWoken) ?_⟩
      rw [balance_of_wake fits.1, balance_of_wake fits.1]
      change -((count + 1 : Nat) : Int) = -(count : Int) - 1
      omega
  | finishes wq count =>
      refine ⟨Or.inr ⟨fits.1, count, rfl⟩, .quiet rfl rfl ?_⟩
      rw [balance_of_wake fits.1, balance_of_wake fits.1]
      rfl
  | requeues wq wq2 count => cases fits.2
  | leavesQueue wq wq2 count => cases fits.2
  | returns result =>
      exact ⟨fits, .quiet rfl rfl (balance_of_result fits []).symm⟩
  | @dropsInner guard others result isDropped =>
      refine ⟨fits, .quiet rfl (futexes.sleeping_setStrong _ _) ?_⟩
      exact (balance_of_result fits _).trans (balance_of_result fits _).symm
  | @dropsBody guard others result isDropped =>
      refine ⟨fits, .quiet rfl (futexes.sleeping_dropBody _ _) ?_⟩
      exact (balance_of_result fits _).trans (balance_of_result fits _).symm

theorem takesToken_of_futexStep (fits : phase.Fits args.command)
    (stepped : futexStep word futexes task args phase = some effect)
    (took : FutexCall.tookToken ⟨args, effect.phase⟩ = true) :
    FutexCall.takesToken ⟨args, phase⟩ := by
  have tookParts := Bool.and_eq_true_iff.mp took
  have isWait : args.command = futexWait := by simpa using tookParts.1
  have isReturned : effect.phase = .returned (.ok 0) := by
    simpa using tookParts.2
  have moved := FutexMove.of_futexStep stepped
  cases moved with
  | refuses result noQueue =>
      have isResult : result = .ok 0 := by
        injection isReturned
      rcases result_of_futexEnter fits (Option.some.inj stepped) with
        ⟨-, error, isError⟩ | ⟨isWake, -⟩
      · rw [isError] at isResult
        cases isResult
      · exact absurd (isWait.symm.trans isWake) futexWait_ne_futexWake
  | returns result =>
      have isResult : result = .ok 0 := by
        injection isReturned
      rw [isResult]
      exact ⟨isWait, rfl⟩
  | _ => cases isReturned

theorem surplus_le_of_futexStep (fits : phase.Fits args.command)
    (stepped : futexStep word futexes task args phase = some effect) :
    FutexCall.surplus ⟨args, effect.phase⟩ ≤
      FutexCall.surplus ⟨args, phase⟩ +
        if FutexCall.takesToken ⟨args, phase⟩ then 1 else 0 := by
  have before : FutexCall.surplus ⟨args, phase⟩ = 0 := by
    apply surplus_of_running
    rintro result rfl
    cases stepped
  have after :
      FutexCall.surplus ⟨args, effect.phase⟩ ≤
        if FutexCall.tookToken ⟨args, effect.phase⟩ then 1 else 0 := by
    rw [FutexCall.surplus]
    omega
  rw [before, Int.zero_add]
  by_cases took : FutexCall.tookToken ⟨args, effect.phase⟩ = true
  · rw [if_pos (takesToken_of_futexStep fits stepped took)]
    rw [if_pos took] at after
    exact after
  · rw [if_neg took] at after
    split <;> omega

end Steps

/-! ## Sums over the calls -/

namespace SysFutexState

variable {state : SysFutexState} {index : Nat} {call : FutexCall} {effect : FutexEffect}

theorem sum_apply_of_none (weight : FutexCall → Int) (found : state.calls[index]? = some call)
    (wakesNobody : effect.woken = none) :
    ((state.apply index effect).calls.map weight).sum =
      (state.calls.map weight).sum + (weight ⟨call.args, effect.phase⟩ - weight call) := by
  have callsAfter :
      (state.apply index effect).calls =
        state.calls.modify index fun call => ⟨call.args, effect.phase⟩ := by
    rw [apply, wakesNobody]
    rfl
  rw [callsAfter, Roster.sum_map_modify weight found]

theorem sum_apply_of_some (weight : FutexCall → Int) {sleeper : Nat} {woken : FutexCall}
    (found : state.calls[index]? = some call)
    (isWoken : effect.woken = some sleeper)
    (sleeperFound : state.calls[sleeper]? = some woken)
    (different : sleeper ≠ index) :
    ((state.apply index effect).calls.map weight).sum =
      (state.calls.map weight).sum +
        (weight ⟨woken.args, woken.phase.wake woken.args⟩ - weight woken) +
        (weight ⟨call.args, effect.phase⟩ - weight call) := by
  let awake := state.calls.modify sleeper fun call =>
      ⟨call.args, call.phase.wake call.args⟩
  have callsAfter :
      (state.apply index effect).calls =
        awake.modify index fun call => ⟨call.args, effect.phase⟩ := by
    rw [apply, isWoken]
    rfl
  have stillFound : awake[index]? = some call := by
    rw [List.getElem?_modify_ne _ _ different, found]
  rw [callsAfter, Roster.sum_map_modify weight stillFound,
    Roster.sum_map_modify weight sleeperFound]

theorem getElem?_apply_of_other {other : Nat} {otherCall : FutexCall}
    (found : state.calls[other]? = some otherCall)
    (notIndex : other ≠ index) (notWoken : effect.woken ≠ some other) :
    (state.apply index effect).calls[other]? = some otherCall := by
  rw [getElem?_apply, found, Option.map_some, if_neg notIndex, if_neg notWoken]

end SysFutexState

theorem FutexPhase.Fits.wake {args : FutexArgs} {phase : FutexPhase}
    (fits : phase.Fits args.command) :
    (phase.wake args).Fits args.command := by
  cases phase with
  | asleep wq => exact Or.inl ⟨fits, Or.inl rfl⟩
  | _ => exact fits

/-! ## Runs -/

structure TokenInvariant (state : SysFutexState) : Prop where
  fits : ∀ call ∈ state.calls, call.Fits
  distinct : state.futexes.sleeping.Nodup
  asleep :
    ∀ task ∈ state.futexes.sleeping,
      ∃ call wq, state.calls[task]? = some call ∧ call.phase = .asleep wq
  balanced : (state.calls.map FutexCall.balance).sum = 0
  covered : (state.calls.map FutexCall.surplus).sum ≤ 0

namespace TokenInvariant

variable {state : SysFutexState}

theorem initial (word : Nat → BitVec 32) : TokenInvariant ⟨word, .new, [], []⟩ where
  fits call member := by cases member
  distinct := by
    rw [FutexTable.sleeping]
    exact Multiset.nodup_zero
  asleep task member := by
    rw [FutexTable.sleeping] at member
    exact absurd member (Multiset.notMem_zero task)
  balanced := rfl
  covered := by
    rw [List.map_nil, List.sum_nil]

theorem sysFutex (holds : TokenInvariant state) {args : FutexArgs}
    (known : args.command = futexWait ∨ args.command = futexWake) :
    TokenInvariant { state with calls := state.calls ++ [⟨args, .entered⟩] } where
  fits := Roster.forall_mem_concat holds.fits known
  distinct := holds.distinct
  asleep task member := by
    obtain ⟨call, wq, found, isAsleep⟩ := holds.asleep task member
    exact ⟨call, wq, Roster.getElem?_append_of_some found _, isAsleep⟩
  balanced := by
    have none : FutexCall.balance ⟨args, .entered⟩ = 0 := by
      simp [FutexCall.balance, FutexCall.surplus, FutexCall.tookToken,
        FutexCall.returnedCount, FutexCall.leaving, FutexCall.inFlight]
    rw [List.map_append, List.sum_append, holds.balanced, List.map_singleton,
      List.sum_singleton, none, Int.add_zero]
  covered := by
    have none : FutexCall.surplus ⟨args, .entered⟩ = 0 := surplus_of_running nofun
    rw [List.map_append, List.sum_append, List.map_singleton,
      List.sum_singleton, none, Int.add_zero]
    exact holds.covered

section Step

variable {index : Nat} {call : FutexCall} {effect : FutexEffect}
  (holds : TokenInvariant state) (found : state.calls[index]? = some call)

include holds found

theorem fits_apply (fitsAfter : effect.phase.Fits call.args.command) :
    ∀ other ∈ (state.apply index effect).calls, other.Fits := by
  intro other member
  obtain ⟨asked, atAsked⟩ := List.mem_iff_getElem?.mp member
  rw [SysFutexState.getElem?_apply] at atAsked
  obtain ⟨before, beforeFound, rfl⟩ := Option.map_eq_some_iff.mp atAsked
  have fitsBefore := holds.fits before (List.mem_of_getElem? beforeFound)
  by_cases same : asked = index
  · subst same
    obtain rfl := Option.some.inj (found.symm.trans beforeFound)
    rw [if_pos rfl]
    exact fitsAfter
  · rw [if_neg same]
    split
    · exact FutexPhase.Fits.wake fitsBefore
    · exact fitsBefore

theorem surplus_lt_of_takesToken (takes : call.takesToken)
    (nobodyInFlight : ∀ waker ∈ state.calls, waker.inFlight = 0) :
    (state.calls.map FutexCall.surplus).sum < 0 := by
  rw [← holds.balanced]
  apply List.sum_lt_sum
  · intro other member
    rw [FutexCall.balance, nobodyInFlight other member]
    omega
  · have member := List.mem_of_getElem? found
    have leaves : call.leaving = 1 := by
      simp [FutexCall.leaving, takes.1, takes.2]
    refine ⟨call, member, ?_⟩
    rw [FutexCall.balance, nobodyInFlight call member, leaves]
    omega

variable (stepped : futexStep state.word state.futexes index call.args call.phase = some effect)

include stepped

theorem ne_of_sleeping {task : Nat} (member : task ∈ state.futexes.sleeping) :
    task ≠ index := by
  rintro rfl
  obtain ⟨sleeper, wq, sleeperFound, isAsleep⟩ := holds.asleep task member
  obtain rfl := Option.some.inj (found.symm.trans sleeperFound)
  rw [isAsleep] at stepped
  cases stepped

theorem exists_sleeper {sleeper : Nat} {others : Multiset Nat}
    (sleeps : state.futexes.sleeping = sleeper ::ₘ others) :
    ∃ args wq, state.calls[sleeper]? = some ⟨args, .asleep wq⟩ ∧
      args.command = futexWait ∧ sleeper ≠ index := by
  have member : sleeper ∈ state.futexes.sleeping := by
    rw [sleeps]
    exact Multiset.mem_cons_self _ _
  obtain ⟨⟨args, phase⟩, wq, sleeperFound, isAsleep⟩ := holds.asleep sleeper member
  obtain rfl : phase = .asleep wq := isAsleep
  have isWait : args.command = futexWait := holds.fits _ (List.mem_of_getElem? sleeperFound)
  exact ⟨args, wq, sleeperFound, isWait, holds.ne_of_sleeping found stepped member⟩

theorem asleep_apply {task : Nat} (member : task ∈ state.futexes.sleeping)
    (notWoken : effect.woken ≠ some task) :
    ∃ other wq,
      (state.apply index effect).calls[task]? = some other ∧ other.phase = .asleep wq := by
  obtain ⟨other, wq, otherFound, isAsleep⟩ := holds.asleep task member
  have notIndex := holds.ne_of_sleeping found stepped member
  refine ⟨other, wq, ?_, isAsleep⟩
  exact SysFutexState.getElem?_apply_of_other otherFound notIndex notWoken

section Tokens

variable (tokens : TokenStep state.futexes index call.args call.phase effect)

include tokens

theorem sleeping_apply :
    effect.futexes.sleeping.Nodup ∧
      ∀ task ∈ effect.futexes.sleeping,
        ∃ other wq,
          (state.apply index effect).calls[task]? = some other ∧ other.phase = .asleep wq := by
  cases tokens with
  | quiet wakesNobody sameSleeping sameBalance =>
      rw [sameSleeping]
      refine ⟨holds.distinct, fun task member =>
          holds.asleep_apply found stepped member ?_⟩
      rw [wakesNobody]
      exact nofun
  | sleeps wakesNobody isAsleep moreSleeping sameBalance =>
      have notWoken (task : Nat) : effect.woken ≠ some task := by
        rw [wakesNobody]
        exact nofun
      rcases moreSleeping with same | more
      · rw [same]
        exact ⟨holds.distinct, fun task member =>
            holds.asleep_apply found stepped member (notWoken task)⟩
      · rw [more]
        constructor
        · refine Multiset.nodup_cons.mpr ⟨?_, holds.distinct⟩
          intro member
          exact holds.ne_of_sleeping found stepped member rfl
        · intro task member
          rcases Multiset.mem_cons.mp member with rfl | old
          · obtain ⟨wq, isPhase⟩ := isAsleep
            refine ⟨⟨call.args, effect.phase⟩, wq, ?_, isPhase⟩
            rw [SysFutexState.getElem?_apply, found, Option.map_some, if_pos rfl]
          · exact holds.asleep_apply found stepped old (notWoken task)
  | @wakes sleeper isWoken lessSleeping oneLess =>
      have distinct := holds.distinct
      rw [lessSleeping, Multiset.nodup_cons] at distinct
      refine ⟨distinct.2, ?_⟩
      intro task member
      apply holds.asleep_apply found stepped
      · rw [lessSleeping]
        exact Multiset.mem_cons_of_mem member
      · rw [isWoken]
        rintro ⟨⟩
        exact distinct.1 member

theorem balanced_apply : ((state.apply index effect).calls.map FutexCall.balance).sum = 0 := by
  have balanced := holds.balanced
  cases tokens with
  | quiet wakesNobody sameSleeping sameBalance =>
      rw [SysFutexState.sum_apply_of_none _ found wakesNobody, balanced, sameBalance, Int.zero_add]
      exact Int.sub_self _
  | sleeps wakesNobody isAsleep moreSleeping sameBalance =>
      rw [SysFutexState.sum_apply_of_none _ found wakesNobody, balanced, sameBalance, Int.zero_add]
      exact Int.sub_self _
  | wakes isWoken lessSleeping oneLess =>
      obtain ⟨sleeperArgs, wq, sleeperFound, isWait, different⟩ :=
        holds.exists_sleeper found stepped lessSleeping
      rw [SysFutexState.sum_apply_of_some _ found isWoken sleeperFound
        different, balanced, oneLess, balance_of_wait isWait,
        balance_of_wait isWait]
      change 0 + ((1 : Int) - 0) + (call.balance - 1 - call.balance) = 0
      omega

theorem surplus_apply :
    ((state.apply index effect).calls.map FutexCall.surplus).sum ≤
      (state.calls.map FutexCall.surplus).sum +
        if call.takesToken then 1 else 0 := by
  have own :
      FutexCall.surplus ⟨call.args, effect.phase⟩ ≤
        call.surplus + if call.takesToken then 1 else 0 :=
    surplus_le_of_futexStep (holds.fits call (List.mem_of_getElem? found)) stepped
  have quietSum (wakesNobody : effect.woken = none) :
      ((state.apply index effect).calls.map FutexCall.surplus).sum ≤
        (state.calls.map FutexCall.surplus).sum +
          if call.takesToken then 1 else 0 := by
    rw [SysFutexState.sum_apply_of_none _ found wakesNobody]
    omega
  cases tokens with
  | quiet wakesNobody => exact quietSum wakesNobody
  | sleeps wakesNobody => exact quietSum wakesNobody
  | wakes isWoken lessSleeping oneLess =>
      obtain ⟨sleeperArgs, wq, sleeperFound, -, different⟩ :=
        holds.exists_sleeper found stepped lessSleeping
      have sleeperBefore : FutexCall.surplus ⟨sleeperArgs, .asleep wq⟩ = 0 :=
        surplus_of_running nofun
      have sleeperAfter :
          FutexCall.surplus ⟨sleeperArgs, (FutexPhase.asleep wq).wake sleeperArgs⟩ = 0 :=
        surplus_of_running nofun
      rw [SysFutexState.sum_apply_of_some _ found isWoken sleeperFound
        different, sleeperBefore, sleeperAfter]
      omega

end Tokens

theorem step (handsOver : call.takesToken → ∀ waker ∈ state.calls, waker.inFlight = 0) :
    TokenInvariant (state.apply index effect) := by
  obtain ⟨fitsAfter, tokens⟩ :=
    TokenStep.of_futexStep (holds.fits call (List.mem_of_getElem? found)) stepped
  have sameFutexes : (state.apply index effect).futexes = effect.futexes := by
    rw [SysFutexState.apply]
    cases effect.woken <;> rfl
  obtain ⟨distinct, asleep⟩ := holds.sleeping_apply found stepped tokens
  refine ⟨holds.fits_apply found fitsAfter, ?_, ?_, holds.balanced_apply found stepped tokens, ?_⟩
  · rw [sameFutexes]
    exact distinct
  · rw [sameFutexes]
    exact asleep
  · have grows := holds.surplus_apply found stepped tokens
    by_cases takes : call.takesToken
    · have less := holds.surplus_lt_of_takesToken found takes (handsOver takes)
      rw [if_pos takes] at grows
      omega
    · have covered := holds.covered
      rw [if_neg takes] at grows
      omega

end Step

theorem of_reachableWithin {addr : Nat}
    (reached : sysFutexMachine.ReachableWithin (fun source action =>
          WaitsAndWakes addr action ∧ HandsOver source action) state) :
    TokenInvariant state := by
  refine Machine.ReachableWithin.invariant ?_ ?_ reached
  · rintro ⟨word, futexes, calls, inserted⟩ ⟨rfl, rfl, rfl⟩
    exact initial word
  · rintro source action target _ holds ⟨isCall, handsOver⟩ stepped
    cases action with
    | store stored value =>
        obtain rfl := Option.some.inj stepped
        exact ⟨holds.fits, holds.distinct, holds.asleep, holds.balanced, holds.covered⟩
    | sysFutex args =>
        obtain rfl := Option.some.inj stepped
        exact holds.sysFutex isCall.2
    | step index =>
        obtain ⟨call, found, applied⟩ := Option.bind_eq_some_iff.mp stepped
        obtain ⟨effect, effects, rfl⟩ := Option.map_eq_some_iff.mp applied
        exact holds.step found effects (handsOver call found)
    | expire index => exact handsOver.elim

end TokenInvariant

theorem sum_surplus (calls : List FutexCall) :
    (calls.map FutexCall.surplus).sum =
      (calls.countP FutexCall.tookToken : Int) -
        ((calls.map FutexCall.returnedCount).sum : Nat) := by
  induction calls with
  | nil => rfl
  | cons call others ih =>
      rw [List.map_cons, List.sum_cons, ih, List.map_cons,
        List.sum_cons, List.countP_cons, FutexCall.surplus]
      split <;> push_cast <;> omega

/-- In a run of waits and wakes at one address in which no time is over, and
no wait returns before the wakes that have counted tasks, the waits that
returned `Ok(0)` are covered by the counts that the wakes returned. -/
theorem futex_waits_were_woken {addr : Nat} {source state : SysFutexState}
    {actions : List SysFutexAction}
    (started : sysFutexMachine.start source)
    (meets : sysFutexMachine.Meets (fun state action =>
          WaitsAndWakes addr action ∧ HandsOver state action)
        source actions)
    (executed : sysFutexMachine.exec source actions = some state) :
    WaitsWereWoken actions state := by
  have reached :=
    Machine.ReachableWithin.exec (Machine.ReachableWithin.start started) meets executed
  have covered := (TokenInvariant.of_reachableWithin reached).covered
  rw [sum_surplus] at covered
  refine ⟨by omega, ?_⟩
  intro index call result member
  obtain ⟨between, -, handsOver⟩ := meets.exists_allowed executed member
  exact handsOver.elim

def waitAt64 (timeout : BitVec 64) : List SysFutexAction :=
  [.sysFutex { plainArgs futexWait 0 with timeout := timeout }, .step 0, .step 0, .step 0]

/-- A wait is woken, and returns after the wake. -/
theorem futex_waits_were_woken_one :
    ∃ actions state,
      sysFutexMachine.exec noFutexCalls actions = some state ∧
        state.calls.countP FutexCall.tookToken = 1 ∧
        WaitsWereWoken actions state := by
  let actions := waitAt64 0 ++ [.sysFutex (plainArgs futexWake 1)] ++
      List.replicate 7 (.step 1) ++ List.replicate 3 (.step 0)
  have observed :
      (sysFutexMachine.exec noFutexCalls actions).map
          (fun state => state.calls.countP FutexCall.tookToken) =
        some 1 := by
    decide +kernel
  obtain ⟨state, executed, took⟩ := Option.map_eq_some_iff.mp observed
  refine ⟨actions, state, executed, took, ?_⟩
  apply @futex_waits_were_woken 64 noFutexCalls state actions ⟨rfl, rfl, rfl⟩
    _ executed
  apply Machine.meets_of_checkMeets
  decide +kernel

theorem exists_not_waitsWereWoken {actions : List SysFutexAction} {phases : List FutexPhase}
    (observed :
      (sysFutexMachine.exec noFutexCalls actions).map
          (fun state => decide
            (state.calls.map FutexCall.phase = phases ∧ state.calls.countP FutexCall.tookToken = 1 ∧
              (state.calls.map FutexCall.returnedCount).sum = 0)) =
        some true) :
    ∃ state, sysFutexMachine.exec noFutexCalls actions = some state ∧
      state.calls.map FutexCall.phase = phases ∧
      ¬ WaitsWereWoken actions state := by
  obtain ⟨state, executed, seen⟩ := Option.map_eq_some_iff.mp observed
  obtain ⟨isPhases, took, counted⟩ := of_decide_eq_true seen
  refine ⟨state, executed, isPhases, ?_⟩
  intro woken
  have covered := woken.covered
  omega

/-- A wait whose time is over returns `Ok(0)` although nobody called
`FUTEX_WAKE`; and a wait can return before the wake that counted it. -/
theorem futex_timeout_returns_ok :
    (∃ actions state,
      (∀ action ∈ actions, WaitsAndWakes 64 action) ∧ .expire 0 ∈ actions ∧
        sysFutexMachine.exec noFutexCalls actions = some state ∧
        state.calls.map FutexCall.phase = [.returned (.ok 0)] ∧
        ¬ WaitsWereWoken actions state) ∧
    ∃ actions state,
      (∀ action ∈ actions, WaitsAndWakes 64 action) ∧ .expire 0 ∉ actions ∧
        sysFutexMachine.exec noFutexCalls actions = some state ∧
        state.calls.map FutexCall.phase = [.returned (.ok 0), .notified 0 none 1] ∧
        ¬ WaitsWereWoken actions state := by
  constructor
  · let actions := waitAt64 8 ++ [.expire 0] ++ List.replicate 3 (.step 0)
    obtain ⟨state, uncovered⟩ :=
      @exists_not_waitsWereWoken actions [.returned (.ok 0)] (by decide +kernel)
    refine ⟨actions, state, by decide +kernel, ?_, uncovered⟩
    simp [actions, waitAt64]
  · let actions := waitAt64 0 ++ [.sysFutex (plainArgs futexWake 1)] ++
        List.replicate 3 (.step 1) ++ List.replicate 3 (.step 0)
    obtain ⟨state, uncovered⟩ :=
      @exists_not_waitsWereWoken actions [.returned (.ok 0), .notified 0 none 1] (by decide +kernel)
    refine ⟨actions, state, by decide +kernel, ?_, uncovered⟩
    simp [actions, waitAt64]

end Vegar.Task

import Mathlib.Logic.Relation
import Vegar.Task.Futex
import Vegar.Task.FutexCalls
import Vegar.Task.Timeout

/-!
# One call of `sys_futex` in the three models

`Vegar.Task.FutexCalls` has the call with all its commands.  The waiters and
wakers of `Vegar.Task.Futex`, which drop their guards in one step, and the
timed call of `Vegar.Task.Timeout`, which has no table, make the same steps.
-/

namespace Vegar.Task

open Vegar.Lib

/-! ## The steps of one call -/

def FutexCallStep (word : Nat → BitVec 32) (task : Nat) (args : FutexArgs)
    (before after : FutexTable × FutexPhase) : Prop :=
  (futexStep word before.1 task args before.2).map (fun effect => (effect.futexes, effect.phase)) =
    some after

def FutexCallSteps (word : Nat → BitVec 32) (task : Nat) (args : FutexArgs) :
    FutexTable × FutexPhase → FutexTable × FutexPhase → Prop :=
  Relation.TransGen (FutexCallStep word task args)

section Steps

variable {word : Nat → BitVec 32} {task : Nat} {args : FutexArgs} {futexes : FutexTable}

theorem callSteps_drop (wq : Nat) (result : LinuxResult Nat) :
    FutexCallSteps word task args (futexes, .dropping [⟨args.uaddr, wq, false⟩] result)
      (futexes.dropGuard args.uaddr wq, .returned result) := by
  rw [FutexTable.dropGuard_eq]
  have body :
      FutexCallStep word task args (futexes, .dropping [⟨args.uaddr, wq, false⟩] result)
        (futexes.dropBody args.uaddr wq, .dropping [⟨args.uaddr, wq, true⟩] result) :=
    rfl
  have inner :
      FutexCallStep word task args
        (futexes.dropBody args.uaddr wq, .dropping [⟨args.uaddr, wq, true⟩] result)
        ((futexes.dropBody args.uaddr wq).dropInner wq, .dropping [] result) :=
    rfl
  exact ((Relation.TransGen.single body).tail inner).tail rfl

section Waits

variable (isWait : args.command = futexWait)

include isWait

theorem callSteps_denied {error : LinuxError} (denied : args.uaddrAccess = .error error) :
    FutexCallSteps word task args (futexes, .entered) (futexes, .returned (.error error)) := by
  refine .single ?_
  rw [FutexCallStep, futexStep, futexEnter, if_pos isWait, compareWord, denied]
  rfl

theorem callSteps_differs (accessible : args.uaddrAccess = .ok ())
    (differs : word args.uaddr ≠ args.value) :
    FutexCallSteps word task args (futexes, .entered) (futexes, .returned (.error .EAGAIN)) := by
  refine .single ?_
  rw [FutexCallStep, futexStep, futexEnter, if_pos isWait, compareWord, accessible]
  simp only [if_pos differs]
  rfl

theorem callSteps_compares (accessible : args.uaddrAccess = .ok ())
    (same : word args.uaddr = args.value) :
    FutexCallSteps word task args (futexes, .entered) (futexes, .compared) := by
  refine .single ?_
  rw [FutexCallStep, futexStep, futexEnter, if_pos isWait, compareWord, accessible]
  simp only [if_neg (not_not_intro same)]
  rfl

theorem callSteps_looksUp :
    FutexCallSteps word task args (futexes, .compared)
      ((futexes.getOrInsert args.uaddr).2, .holding (futexes.getOrInsert args.uaddr).1) := by
  refine .single ?_
  rw [FutexCallStep, futexStep, futexLookUp, if_pos isWait]
  rfl

end Waits

theorem callSteps_noTimeout {wq : Nat} {error : LinuxError}
    (denied : args.hasTimeout = .error error) :
    FutexCallSteps word task args (futexes, .holding wq)
      (futexes, .dropping [⟨args.uaddr, wq, false⟩] (.error error)) := by
  refine .single ?_
  rw [FutexCallStep, futexStep, futexSleep, denied]
  rfl

theorem callSteps_sleeps {wq : Nat} {limited : Bool} (asked : args.hasTimeout = .ok limited) :
    FutexCallSteps word task args (futexes, .holding wq) (futexes.enqueue wq task, .asleep wq) := by
  refine .single ?_
  rw [FutexCallStep, futexStep, futexSleep, asked]
  rfl

end Steps

/-! ## Waiters -/

def Waiter.args (waiter : Waiter) : FutexArgs where
  uaddr := waiter.addr
  futexOp := futexWait
  value := waiter.expected
  timeout := if waiter.timeout.isSome then 1 else 0
  uaddr2 := 0
  value3 := 0
  uaddrAccess := waiter.access
  timeoutAccess := waiter.timeout.getD (.ok ())

def WaitPhase.asCall (addr : Nat) : WaitPhase → FutexPhase
  | .comparing => .entered
  | .compared => .compared
  | .holding queue => .holding queue
  | .asleep queue => .asleep queue
  | .leaving queue result => .dropping [⟨addr, queue, false⟩] result
  | .returned result => .returned result

theorem Waiter.hasTimeout_args (waiter : Waiter) :
    waiter.args.hasTimeout =
      match waiter.timeout with
      | none => .ok false
      | some access => access.map fun () => true := by
  unfold FutexArgs.hasTimeout Waiter.args
  cases waiter.timeout <;> rfl

theorem callSteps_of_stepWait {state target : FutexState} {index : Nat} {waiter : Waiter}
    (stepped : state.stepWait index waiter = some target) :
    ∃ futexes phase,
      target = { state with futexes := futexes }.setWait index phase ∧
        FutexCallSteps state.word index waiter.args (state.futexes, waiter.phase.asCall waiter.addr)
          (futexes, phase.asCall waiter.addr) := by
  have isWait : waiter.args.command = futexWait := by
    change futexWait &&& futexCmdMask = futexWait
    decide
  have asked := waiter.hasTimeout_args
  unfold FutexState.stepWait at stepped
  cases isPhase : waiter.phase with
  | comparing =>
      cases accessed : waiter.access with
      | error error =>
          simp only [isPhase, accessed] at stepped
          obtain rfl := Option.some.inj stepped
          exact ⟨_, .returned _, rfl, callSteps_denied isWait accessed⟩
      | ok done =>
          by_cases same : state.word waiter.addr = waiter.expected
          · simp only [isPhase, accessed, if_neg (not_not_intro same)] at stepped
            obtain rfl := Option.some.inj stepped
            exact ⟨_, .compared, rfl, callSteps_compares isWait accessed same⟩
          · simp only [isPhase, accessed, ne_eq, if_pos same] at stepped
            obtain rfl := Option.some.inj stepped
            exact ⟨_, .returned _, rfl, callSteps_differs isWait accessed same⟩
  | compared =>
      simp only [isPhase] at stepped
      obtain rfl := Option.some.inj stepped
      exact ⟨_, .holding _, rfl, callSteps_looksUp isWait⟩
  | holding queue =>
      rcases limited : waiter.timeout with _ | ⟨error⟩ | ⟨⟩
      · simp only [isPhase, limited] at stepped asked
        obtain rfl := Option.some.inj stepped
        exact ⟨_, .asleep queue, rfl, callSteps_sleeps asked⟩
      · simp only [isPhase, limited] at stepped asked
        obtain rfl := Option.some.inj stepped
        exact ⟨_, .leaving queue _, rfl, callSteps_noTimeout asked⟩
      · simp only [isPhase, limited] at stepped asked
        obtain rfl := Option.some.inj stepped
        exact ⟨_, .asleep queue, rfl, callSteps_sleeps asked⟩
  | asleep queue =>
      simp only [isPhase] at stepped
      cases stepped
  | leaving queue result =>
      simp only [isPhase] at stepped
      obtain rfl := Option.some.inj stepped
      exact ⟨_, .returned result, rfl, callSteps_drop queue result⟩
  | returned result =>
      simp only [isPhase] at stepped
      cases stepped

theorem wake_asCall (waiter : Waiter) (queue : Nat) :
    ((WaitPhase.asleep queue).asCall waiter.addr).wake waiter.args =
      (WaitPhase.leaving queue (.ok 0)).asCall waiter.addr :=
  rfl

/-! ## Wakers -/

/-- The arguments of the `FUTEX_WAKE` of a waker. -/
def Waker.args (waker : Waker) : FutexArgs where
  uaddr := waker.addr
  futexOp := futexWake
  value := .ofNat 32 waker.value
  timeout := 0
  uaddr2 := 0
  value3 := 0
  uaddrAccess := .ok ()
  timeoutAccess := .ok ()

def WakePhase.asCall (addr : Nat) : WakePhase → FutexPhase
  | .storing => .entered
  | .issued => .entered
  | .notifying queue remaining count => .notifying queue none remaining count
  | .dropping queue count => .dropping [⟨addr, queue, false⟩] (.ok count)
  | .returned count => .returned (.ok count)

def FutexState.wakeTask (state : FutexState) : Option (Nat × Nat) → FutexState
  | none => state
  | some (task, queue) => state.setWait task (.leaving queue (.ok 0))

/-- A step of a waker behind its store is one of a `FUTEX_WAKE`, or those that
end its loop and those that drop its guard. -/
theorem callSteps_of_stepWake {state target : FutexState} {index : Nat} {waker : Waker}
    (fits : waker.value < 2 ^ 32) (isIssued : waker.phase ≠ .storing)
    (stepped : state.stepWake index waker = some target) :
    ∃ futexes woken phase,
      target = ({ state with futexes := futexes }.wakeTask woken).setWake index phase ∧
        FutexCallSteps state.word index waker.args (state.futexes, waker.phase.asCall waker.addr)
          (futexes, phase.asCall waker.addr) := by
  have isWake : waker.args.command = futexWake := by
    change futexWake &&& futexCmdMask = futexWake
    decide
  have notWait : waker.args.command ≠ futexWait := by
    rw [isWake]
    decide
  have isValue : waker.args.value.toNat = waker.value :=
    (BitVec.toNat_ofNat _ _).trans (Nat.mod_eq_of_lt fits)
  have finishes {queue count : Nat}
      (ends :
        FutexCallStep state.word index waker.args (state.futexes, waker.phase.asCall waker.addr)
          (state.futexes, .notified queue none count)) :
      FutexCallSteps state.word index waker.args (state.futexes, waker.phase.asCall waker.addr)
        (state.futexes, (WakePhase.dropping queue count).asCall waker.addr) :=
    (Relation.TransGen.single ends).tail rfl
  unfold FutexState.stepWake at stepped
  cases isPhase : waker.phase with
  | storing => exact absurd isPhase isIssued
  | issued =>
      cases got : state.futexes.get waker.addr with
      | none =>
          simp only [isPhase, got] at stepped
          obtain rfl := Option.some.inj stepped
          refine ⟨_, none, .returned 0, rfl, .single ?_⟩
          have missing : state.futexes.get waker.args.uaddr = none := got
          rw [FutexCallStep, WakePhase.asCall, futexStep, futexEnter,
            if_neg notWait, if_pos isWake, missing]
          rfl
      | some found =>
          simp only [isPhase, got] at stepped
          obtain rfl := Option.some.inj stepped
          refine ⟨_, none, .notifying found.1 waker.value 0, rfl, .single ?_⟩
          have isGot : state.futexes.get waker.args.uaddr = some found := got
          rw [FutexCallStep, WakePhase.asCall, futexStep, futexEnter,
            if_neg notWait, if_pos isWake, isGot, isValue]
          rfl
  | notifying queue remaining count =>
      rw [isPhase] at finishes
      cases remaining with
      | zero =>
          simp only [isPhase] at stepped
          obtain rfl := Option.some.inj stepped
          exact ⟨_, none, .dropping queue count, rfl, finishes rfl⟩
      | succ remaining =>
          cases notified : state.futexes.notifyOne queue with
          | none =>
              simp only [isPhase, notified] at stepped
              obtain rfl := Option.some.inj stepped
              refine ⟨_, none, .dropping queue count, rfl, finishes ?_⟩
              rw [FutexCallStep, WakePhase.asCall, futexStep, futexNotify, notified]
              rfl
          | some woken =>
              simp only [isPhase, notified] at stepped
              obtain rfl := Option.some.inj stepped
              refine ⟨woken.2, some (woken.1, queue),
                  .notifying queue remaining (count + 1), rfl, .single ?_⟩
              rw [FutexCallStep, WakePhase.asCall, futexStep, futexNotify, notified]
              rfl
  | dropping queue count =>
      simp only [isPhase] at stepped
      obtain rfl := Option.some.inj stepped
      exact ⟨_, none, .returned count, rfl, callSteps_drop queue (.ok count)⟩
  | returned count =>
      simp only [isPhase] at stepped
      cases stepped

/-! ## The timed call -/

section Timed

variable {word : Nat → BitVec 32} {task : Nat} {args : FutexArgs} {futexes : FutexTable}

def FutexArgs.found (args : FutexArgs) (word : Nat → BitVec 32) : LinuxResult (BitVec 32) :=
  args.uaddrAccess.map fun () => word args.uaddr

def FutexArgs.limit (args : FutexArgs) (spec : Timespec) : LinuxResult (Option Timespec) :=
  if args.timeout = 0 then .ok none
  else args.timeoutAccess.map fun () => some spec

/-- A `FUTEX_WAIT` that does not panic sleeps where the timed call waits, and
returns the error where it fails. -/
theorem callSteps_of_sysFutexWait (isWait : args.command = futexWait) (spec : Timespec) :
    (∀ limit,
        (sysFutexWait (args.found word) args.value (args.limit spec)).waited = some limit →
          ∃ wq after, FutexCallSteps word task args (futexes, .entered) (after, .asleep wq)) ∧
      ∀ error,
        (sysFutexWait (args.found word) args.value
          (args.limit spec)).outcome = .error (.err error) →
          ∃ after,
            FutexCallSteps word task args (futexes, .entered)
              (after, .returned (.error error)) := by
  cases accessed : args.uaddrAccess with
  | error denied =>
      simp only [FutexArgs.found, accessed, Except.map, sysFutexWait, TimedCall.failed]
      refine ⟨fun _ waited => (by cases waited), ?_⟩
      intro error failed
      obtain rfl := Fault.err.inj (Except.error.inj failed)
      exact ⟨_, callSteps_denied isWait accessed⟩
  | ok done =>
      by_cases same : word args.uaddr = args.value
      · have holding := (@callSteps_compares word task _ futexes isWait accessed
            same).trans (callSteps_looksUp isWait)
        have goesOn :
            sysFutexWait (args.found word) args.value (args.limit spec) =
              TimedCall.withTimeout (args.limit spec) awaitWake := by
          simp only [FutexArgs.found, accessed, Except.map, sysFutexWait,
            same, ne_eq, not_true_eq_false, if_false]
        rw [goesOn]
        by_cases unlimited : args.timeout = 0
        · have asked : args.hasTimeout = .ok false := if_pos unlimited
          simp only [FutexArgs.limit, if_pos unlimited, TimedCall.withTimeout, awaitWake]
          exact ⟨fun _ _ => ⟨_, _, holding.trans (callSteps_sleeps asked)⟩,
            fun _ failed => by cases failed⟩
        · have asked : args.hasTimeout = args.timeoutAccess.map fun () => true := if_neg unlimited
          simp only [FutexArgs.limit, if_neg unlimited]
          cases readable : args.timeoutAccess with
          | error denied =>
              rw [readable] at asked
              refine ⟨fun _ waited => (by cases waited), ?_⟩
              intro error failed
              obtain rfl := Fault.err.inj (Except.error.inj failed)
              exact ⟨_, (holding.trans (callSteps_noTimeout asked)).trans (callSteps_drop _ _)⟩
          | ok done =>
              rw [readable] at asked
              refine ⟨fun _ _ => ⟨_, _, holding.trans (callSteps_sleeps asked)⟩, ?_⟩
              intro error failed
              simp only [Except.map, TimedCall.withTimeout] at failed
              split at failed <;> cases failed
      · have stops :
            sysFutexWait (args.found word) args.value (args.limit spec) =
              TimedCall.failed (.err .EAGAIN) := by
          simp only [FutexArgs.found, accessed, Except.map, sysFutexWait,
            same, ne_eq, not_false_eq_true, if_true]
        rw [stops]
        refine ⟨fun _ waited => (by cases waited), ?_⟩
        intro error failed
        obtain rfl := Fault.err.inj (Except.error.inj failed)
        exact ⟨_, callSteps_differs isWait accessed same⟩

end Timed

end Vegar.Task

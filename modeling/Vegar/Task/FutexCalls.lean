import Mathlib.Algebra.Order.BigOperators.Group.Finset
import Vegar.Outcome
import Vegar.Task.FutexGuards

/-!
# The calls of `sys_futex`

`sys_futex` of `api/src/imp/futex.rs` with all its commands, by any number of
tasks of one process, as a refinement of `Vegar.Task.FutexGuards`.  The state
also records the addresses that were passed to `get_or_insert`.
-/

namespace Vegar.Task

open Vegar.Lib

/-! ## Arguments and phases -/

/-- The arguments of `sys_futex`, with what `get_as_ref` says of the two user
pointers. -/
structure FutexArgs where
  uaddr : Nat
  futexOp : BitVec 32
  value : BitVec 32
  timeout : BitVec 64
  uaddr2 : Nat
  value3 : BitVec 32
  uaddrAccess : LinuxResult Unit
  timeoutAccess : LinuxResult Unit
  deriving DecidableEq

def futexWait : BitVec 32 := 0
def futexWake : BitVec 32 := 1
def futexRequeue : BitVec 32 := 3
def futexCmpRequeue : BitVec 32 := 4

/-- `FUTEX_CMD_MASK`: all but the flags for private futexes and for the
realtime clock. -/
def futexCmdMask : BitVec 32 := ~~~(128 ||| 256)

namespace FutexArgs

def command (args : FutexArgs) : BitVec 32 := args.futexOp &&& futexCmdMask

/-- `timeout.address().as_usize() as u32`. -/
def value2 (args : FutexArgs) : Nat := (args.timeout.setWidth 32).toNat

/-- `nullable!(timeout.get_as_ref())`: whether the wait has a time limit. -/
def hasTimeout (args : FutexArgs) : LinuxResult Bool :=
  if args.timeout = 0 then .ok false
  else args.timeoutAccess.map fun () => true

end FutexArgs

/-- Where a call stands; `wq` and `wq2` are the queues of its guards. -/
inductive FutexPhase where
  | entered
  | compared
  | found (wq : Option Nat)
  | holding (wq : Nat)
  | asleep (wq : Nat)
  | notifying (wq : Nat) (wq2 : Option Nat) (remaining count : Nat)
  | notified (wq : Nat) (wq2 : Option Nat) (count : Nat)
  | dropping (guards : List WaitQueueGuard) (result : LinuxResult Nat)
  | returned (result : LinuxResult Nat)
  deriving DecidableEq

namespace FutexPhase

def guards (args : FutexArgs) : FutexPhase → List WaitQueueGuard
  | found (some wq) => [⟨args.uaddr, wq, false⟩]
  | holding wq => [⟨args.uaddr, wq, false⟩]
  | asleep wq => [⟨args.uaddr, wq, false⟩]
  | notifying wq none _ _ => [⟨args.uaddr, wq, false⟩]
  | notifying wq (some wq2) _ _ =>
      [⟨args.uaddr, wq, false⟩, ⟨args.uaddr2, wq2, false⟩]
  | notified wq none _ => [⟨args.uaddr, wq, false⟩]
  | notified wq (some wq2) _ =>
      [⟨args.uaddr, wq, false⟩, ⟨args.uaddr2, wq2, false⟩]
  | dropping guards _ => guards
  | _ => []

def wake (args : FutexArgs) : FutexPhase → FutexPhase
  | asleep wq => dropping [⟨args.uaddr, wq, false⟩] (.ok 0)
  | phase => phase

theorem guards_wake (args : FutexArgs) (phase : FutexPhase) :
    (phase.wake args).guards args = phase.guards args := by
  cases phase <;> rfl

end FutexPhase

/-! ## The steps of one call -/

/-- What a step of a call does: the table after it, the address it passed to
`get_or_insert`, the task it woke, and where the call stands then. -/
structure FutexEffect where
  futexes : FutexTable
  inserted : List Nat
  woken : Option Nat
  phase : FutexPhase

def FutexEffect.goto (futexes : FutexTable) (phase : FutexPhase) :
    FutexEffect :=
  ⟨futexes, [], none, phase⟩

/-- `*uaddr.get_as_ref()? != expected`. -/
def compareWord (word : Nat → BitVec 32) (args : FutexArgs)
    (expected : BitVec 32) : LinuxResult Unit :=
  match args.uaddrAccess with
  | .error error => .error error
  | .ok () =>
      if word args.uaddr ≠ expected then .error .EAGAIN else .ok ()

def afterCompare (futexes : FutexTable) : LinuxResult Unit → FutexEffect
  | .error error => .goto futexes (.returned (.error error))
  | .ok () => .goto futexes .compared

def futexEnter (word : Nat → BitVec 32) (futexes : FutexTable) (args : FutexArgs) : FutexEffect :=
  if args.command = futexWait then
    afterCompare futexes (compareWord word args args.value)
  else if args.command = futexWake then
    match futexes.get args.uaddr with
    | none => .goto futexes (.returned (.ok 0))
    | some (wq, got) =>
        .goto got (.notifying wq none args.value.toNat 0)
  else if args.command = futexRequeue then
    .goto futexes .compared
  else if args.command = futexCmpRequeue then
    afterCompare futexes (compareWord word args args.value3)
  else .goto futexes (.returned (.error .ENOSYS))

/-- The first lookup of `FUTEX_WAIT` and of `FUTEX_REQUEUE`. -/
def futexLookUp (futexes : FutexTable) (args : FutexArgs) : FutexEffect :=
  if args.command = futexWait then
    let inserted := futexes.getOrInsert args.uaddr
    ⟨inserted.2, [args.uaddr], none, .holding inserted.1⟩
  else
    match futexes.get args.uaddr with
    | none => .goto futexes (.found none)
    | some (wq, got) => .goto got (.found (some wq))

/-- The second lookup of `FUTEX_REQUEUE`. -/
def futexLookUpTarget (futexes : FutexTable) (args : FutexArgs) (wq : Option Nat) : FutexEffect :=
  let inserted := futexes.getOrInsert args.uaddr2
  match wq with
  | none =>
      ⟨inserted.2, [args.uaddr2], none, .dropping [⟨args.uaddr2, inserted.1, false⟩] (.ok 0)⟩
  | some wq =>
      ⟨inserted.2, [args.uaddr2], none, .notifying wq (some inserted.1) args.value.toNat 0⟩

/-- The wait of `FUTEX_WAIT`. -/
def futexSleep (futexes : FutexTable) (task : Nat) (args : FutexArgs) (wq : Nat) : FutexEffect :=
  match args.hasTimeout with
  | .error error =>
      .goto futexes (.dropping [⟨args.uaddr, wq, false⟩] (.error error))
  | .ok _ => .goto (futexes.enqueue wq task) (.asleep wq)

def futexNotify (futexes : FutexTable) (wq : Nat) (wq2 : Option Nat) : Nat → Nat → FutexEffect
  | 0, count => .goto futexes (.notified wq wq2 count)
  | remaining + 1, count =>
      match futexes.notifyOne wq with
      | none => .goto futexes (.notified wq wq2 count)
      | some (task, woken) =>
          ⟨woken, [], some task, .notifying wq wq2 remaining (count + 1)⟩

/-- What follows the loop: `FUTEX_REQUEUE` moves tasks if it woke as many as
it could. -/
def futexFinish (futexes : FutexTable) (args : FutexArgs) (wq : Nat)
    (wq2 : Option Nat) (count : Nat) : FutexEffect :=
  match wq2 with
  | none => .goto futexes (.dropping [⟨args.uaddr, wq, false⟩] (.ok count))
  | some wq2 =>
      let guards : List WaitQueueGuard := [⟨args.uaddr, wq, false⟩, ⟨args.uaddr2, wq2, false⟩]
      if count = args.value.toNat then
        let moved := futexes.requeue args.value2 wq wq2
        .goto moved.2 (.dropping guards (.ok (count + moved.1)))
      else .goto futexes (.dropping guards (.ok count))

def futexDrop (futexes : FutexTable) (result : LinuxResult Nat) : List WaitQueueGuard → FutexEffect
  | [] => .goto futexes (.returned result)
  | guard :: rest =>
      if guard.dropped then
        .goto (futexes.dropInner guard.inner) (.dropping rest result)
      else
        .goto (futexes.dropBody guard.key guard.inner)
          (.dropping ({ guard with dropped := true } :: rest) result)

def futexStep (word : Nat → BitVec 32) (futexes : FutexTable) (task : Nat)
    (args : FutexArgs) : FutexPhase → Option FutexEffect
  | .entered => some (futexEnter word futexes args)
  | .compared => some (futexLookUp futexes args)
  | .found wq => some (futexLookUpTarget futexes args wq)
  | .holding wq => some (futexSleep futexes task args wq)
  | .asleep _ => none
  | .notifying wq wq2 remaining count =>
      some (futexNotify futexes wq wq2 remaining count)
  | .notified wq wq2 count => some (futexFinish futexes args wq wq2 count)
  | .dropping guards result => some (futexDrop futexes result guards)
  | .returned _ => none

/-! ## What a step does -/

inductive FutexMove (futexes : FutexTable) (task : Nat) (args : FutexArgs) :
    FutexPhase → FutexEffect → Prop
  | compares (notWake : args.command ≠ futexWake) :
      FutexMove futexes task args .entered (.goto futexes .compared)
  | refuses (result : LinuxResult Nat)
      (noQueue : args.command = futexWake → futexes.get args.uaddr = none) :
      FutexMove futexes task args .entered (.goto futexes (.returned result))
  | getsWoken {wq : Nat} {got : FutexTable} (isGot : futexes.get args.uaddr = some (wq, got)) :
      FutexMove futexes task args .entered (.goto got (.notifying wq none args.value.toNat 0))
  | inserts (isWait : args.command = futexWait) :
      FutexMove futexes task args .compared
        ⟨(futexes.getOrInsert args.uaddr).2, [args.uaddr], none,
          .holding (futexes.getOrInsert args.uaddr).1⟩
  | misses : FutexMove futexes task args .compared (.goto futexes (.found none))
  | getsRequeued {wq : Nat} {got : FutexTable} (isGot : futexes.get args.uaddr = some (wq, got)) :
      FutexMove futexes task args .compared (.goto got (.found (some wq)))
  | insertsUnused :
      FutexMove futexes task args (.found none)
        ⟨(futexes.getOrInsert args.uaddr2).2, [args.uaddr2], none,
          .dropping [⟨args.uaddr2, (futexes.getOrInsert args.uaddr2).1, false⟩] (.ok 0)⟩
  | insertsTarget (wq : Nat) :
      FutexMove futexes task args (.found (some wq))
        ⟨(futexes.getOrInsert args.uaddr2).2, [args.uaddr2], none,
          .notifying wq (some (futexes.getOrInsert args.uaddr2).1) args.value.toNat 0⟩
  | rejectsTimeout (wq : Nat) (error : LinuxError) :
      FutexMove futexes task args (.holding wq)
        (.goto futexes (.dropping [⟨args.uaddr, wq, false⟩] (.error error)))
  | sleeps (wq : Nat) :
      FutexMove futexes task args (.holding wq) (.goto (futexes.enqueue wq task) (.asleep wq))
  | stops (wq : Nat) (wq2 : Option Nat) (remaining count : Nat)
      (noneLeft : remaining ≠ 0 → futexes.notifyOne wq = none) :
      FutexMove futexes task args (.notifying wq wq2 remaining count)
        (.goto futexes (.notified wq wq2 count))
  | notifies {wq woken : Nat} {after : FutexTable} (wq2 : Option Nat) (remaining count : Nat)
      (isWoken : futexes.notifyOne wq = some (woken, after)) :
      FutexMove futexes task args (.notifying wq wq2 (remaining + 1) count)
        ⟨after, [], some woken, .notifying wq wq2 remaining (count + 1)⟩
  | finishes (wq count : Nat) :
      FutexMove futexes task args (.notified wq none count)
        (.goto futexes (.dropping [⟨args.uaddr, wq, false⟩] (.ok count)))
  | requeues (wq wq2 count : Nat) :
      FutexMove futexes task args (.notified wq (some wq2) count)
        (.goto (futexes.requeue args.value2 wq wq2).2
          (.dropping [⟨args.uaddr, wq, false⟩, ⟨args.uaddr2, wq2, false⟩]
            (.ok (count + (futexes.requeue args.value2 wq wq2).1))))
  | leavesQueue (wq wq2 count : Nat) :
      FutexMove futexes task args (.notified wq (some wq2) count)
        (.goto futexes (.dropping [⟨args.uaddr, wq, false⟩, ⟨args.uaddr2, wq2, false⟩] (.ok count)))
  | returns (result : LinuxResult Nat) :
      FutexMove futexes task args (.dropping [] result) (.goto futexes (.returned result))
  | dropsInner {guard : WaitQueueGuard} (rest : List WaitQueueGuard)
      (result : LinuxResult Nat) (isDropped : guard.dropped = true) :
      FutexMove futexes task args (.dropping (guard :: rest) result)
        (.goto (futexes.dropInner guard.inner) (.dropping rest result))
  | dropsBody {guard : WaitQueueGuard} (rest : List WaitQueueGuard)
      (result : LinuxResult Nat) (isDropped : guard.dropped = false) :
      FutexMove futexes task args (.dropping (guard :: rest) result)
        (.goto (futexes.dropBody guard.key guard.inner)
          (.dropping ({ guard with dropped := true } :: rest) result))

namespace FutexMove

variable {futexes : FutexTable} {task : Nat} {args : FutexArgs}

theorem of_afterCompare (notWake : args.command ≠ futexWake) (compared : LinuxResult Unit) :
    FutexMove futexes task args .entered (afterCompare futexes compared) := by
  cases compared with
  | error error =>
      exact refuses (.error error) fun isWake => absurd isWake notWake
  | ok done => exact compares notWake

theorem of_futexEnter (word : Nat → BitVec 32) :
    FutexMove futexes task args .entered (futexEnter word futexes args) := by
  unfold futexEnter
  split
  · next isWait =>
      have notWake : args.command ≠ futexWake := by
        rw [isWait]
        decide
      exact of_afterCompare notWake _
  · split
    · split
      · next missing => exact refuses (.ok 0) fun _ => missing
      · next isGot => exact getsWoken isGot
    · next notWake =>
        split
        · exact compares notWake
        · split
          · exact of_afterCompare notWake _
          · exact refuses (.error .ENOSYS) fun isWake => absurd isWake notWake

theorem of_futexLookUp : FutexMove futexes task args .compared (futexLookUp futexes args) := by
  unfold futexLookUp
  split
  · next isWait => exact inserts isWait
  · split
    · exact misses
    · next isGot => exact getsRequeued isGot

theorem of_futexNotify (wq : Nat) (wq2 : Option Nat) (remaining count : Nat) :
    FutexMove futexes task args (.notifying wq wq2 remaining count)
      (futexNotify futexes wq wq2 remaining count) := by
  cases remaining with
  | zero => exact stops wq wq2 0 count (absurd rfl)
  | succ remaining =>
      cases woken : futexes.notifyOne wq with
      | none =>
          simp only [futexNotify, woken]
          exact stops wq wq2 (remaining + 1) count fun _ => woken
      | some first =>
          simp only [futexNotify, woken]
          exact notifies wq2 remaining count woken

theorem of_futexFinish (wq : Nat) (wq2 : Option Nat) (count : Nat) :
    FutexMove futexes task args (.notified wq wq2 count)
      (futexFinish futexes args wq wq2 count) := by
  cases wq2 with
  | none => exact finishes wq count
  | some wq2 =>
      by_cases wokeAll : count = args.value.toNat
      · simp only [futexFinish, if_pos wokeAll]
        exact requeues wq wq2 count
      · simp only [futexFinish, if_neg wokeAll]
        exact leavesQueue wq wq2 count

theorem of_futexDrop (guards : List WaitQueueGuard) (result : LinuxResult Nat) :
    FutexMove futexes task args (.dropping guards result) (futexDrop futexes result guards) := by
  cases guards with
  | nil => exact returns result
  | cons guard rest =>
      cases isDropped : guard.dropped with
      | true =>
          simp only [futexDrop, isDropped, if_true]
          exact dropsInner rest result isDropped
      | false =>
          simp only [futexDrop, isDropped, Bool.false_eq_true, if_false]
          exact dropsBody rest result isDropped

theorem of_futexStep {word : Nat → BitVec 32} {phase : FutexPhase} {effect : FutexEffect}
    (stepped : futexStep word futexes task args phase = some effect) :
    FutexMove futexes task args phase effect := by
  cases phase with
  | asleep wq => cases stepped
  | returned result => cases stepped
  | entered =>
      obtain rfl := Option.some.inj stepped
      exact of_futexEnter word
  | compared =>
      obtain rfl := Option.some.inj stepped
      exact of_futexLookUp
  | found wq =>
      obtain rfl := Option.some.inj stepped
      cases wq with
      | none => exact insertsUnused
      | some wq => exact insertsTarget wq
  | holding wq =>
      obtain rfl := Option.some.inj stepped
      unfold futexSleep
      split
      · next error _ => exact rejectsTimeout wq error
      · exact sleeps wq
  | notifying wq wq2 remaining count =>
      obtain rfl := Option.some.inj stepped
      exact of_futexNotify wq wq2 remaining count
  | notified wq wq2 count =>
      obtain rfl := Option.some.inj stepped
      exact of_futexFinish wq wq2 count
  | dropping guards result =>
      obtain rfl := Option.some.inj stepped
      exact of_futexDrop guards result

end FutexMove

/-! ## Runs of calls -/

structure FutexCall where
  args : FutexArgs
  phase : FutexPhase

structure SysFutexState where
  word : Nat → BitVec 32
  futexes : FutexTable
  calls : List FutexCall
  inserted : List Nat

inductive SysFutexAction where
  | store (addr : Nat) (value : BitVec 32)
  | sysFutex (args : FutexArgs)
  | step (call : Nat)
  | expire (call : Nat)

namespace SysFutexState

def setPhase (state : SysFutexState) (index : Nat) (phase : FutexPhase) :
    SysFutexState :=
  { state with
    calls := state.calls.modify index fun call =>
      { call with phase := phase } }

def wake (state : SysFutexState) : Option Nat → SysFutexState
  | none => state
  | some task =>
      { state with
        calls := state.calls.modify task fun call =>
          { call with phase := call.phase.wake call.args } }

def apply (state : SysFutexState) (index : Nat) (effect : FutexEffect) :
    SysFutexState :=
  ({ state with
    futexes := effect.futexes
    inserted := effect.inserted ++ state.inserted }.wake effect.woken).setPhase index effect.phase

def queueOf (state : SysFutexState) (task : Nat) : Option Nat :=
  state.futexes.queues.findIdx? fun queue => queue.tasks.contains task

def expire (state : SysFutexState) (index : Nat) (call : FutexCall) :
    Option SysFutexState :=
  match call.phase, call.args.hasTimeout with
  | .asleep _, .ok true =>
      (state.queueOf index).map fun queue =>
        { state with
          futexes := state.futexes.remove queue index }.wake (some index)
  | _, _ => none

def guards (state : SysFutexState) : Multiset WaitQueueGuard :=
  ↑(state.calls.flatMap fun call => call.phase.guards call.args)

end SysFutexState

def sysFutexNext (state : SysFutexState) : SysFutexAction → Option SysFutexState
  | .store addr value =>
      some { state with word := Function.update state.word addr value }
  | .sysFutex args =>
      some { state with calls := state.calls ++ [⟨args, .entered⟩] }
  | .step index =>
      (state.calls[index]?).bind fun call =>
        (futexStep state.word state.futexes index call.args call.phase).map
          fun effect => state.apply index effect
  | .expire index =>
      (state.calls[index]?).bind fun call => state.expire index call

def sysFutexMachine : Machine SysFutexState SysFutexAction where
  start state := state.futexes = .new ∧ state.calls = [] ∧ state.inserted = []
  next := sysFutexNext

/-! ## Calls refine the use of guards -/

/-- A step of a call is a step of `guardMachine` that inserts the same
addresses, or changes neither the table nor the guards. -/
def Simulated (source target : GuardState) (inserted : List Nat) : Prop :=
  (target = source ∧ inserted = []) ∨
    ∃ action, guardNext source action = some target ∧ inserted = action.inserts

section Effects

variable {futexes : FutexTable} {args : FutexArgs} (rest : Multiset WaitQueueGuard)

/-- The table and the guards when a call stands in a phase and the others have
the guards `rest`. -/
def guardsWith (args : FutexArgs) (futexes : FutexTable) (phase : FutexPhase)
    (rest : Multiset WaitQueueGuard) : GuardState :=
  ⟨futexes, ↑(phase.guards args) + rest⟩

theorem simulated_goto {phase later : FutexPhase}
    (sameGuards : later.guards args = phase.guards args) :
    Simulated (guardsWith args futexes phase rest) (guardsWith args futexes later rest) [] := by
  refine Or.inl ⟨?_, rfl⟩
  rw [guardsWith, guardsWith, sameGuards]

theorem simulated_get {got : FutexTable} {phase later : FutexPhase} {wq : Nat}
    (isGot : futexes.get args.uaddr = some (wq, got))
    (noGuard : phase.guards args = [])
    (oneGuard : later.guards args = [⟨args.uaddr, wq, false⟩]) :
    Simulated (guardsWith args futexes phase rest) (guardsWith args got later rest) [] := by
  refine Or.inr ⟨.get args.uaddr, ?_, rfl⟩
  simp [guardNext, guardsWith, isGot, noGuard, oneGuard]

theorem simulated_getOrInsert {addr : Nat} {phase later : FutexPhase}
    (oneMore :
      (↑(later.guards args) : Multiset WaitQueueGuard) =
        ⟨addr, (futexes.getOrInsert addr).1, false⟩ ::ₘ ↑(phase.guards args)) :
    Simulated (guardsWith args futexes phase rest)
      (guardsWith args (futexes.getOrInsert addr).2 later rest) [addr] := by
  refine Or.inr ⟨.getOrInsert addr, ?_, rfl⟩
  rw [guardsWith, guardsWith, oneMore, Multiset.cons_add]
  rfl

theorem simulated_futexMove {task : Nat} {phase : FutexPhase} {effect : FutexEffect}
    (moved : FutexMove futexes task args phase effect) :
    Simulated (guardsWith args futexes phase rest)
      (guardsWith args effect.futexes effect.phase rest)
      effect.inserted := by
  have guardsEq (first : WaitQueueGuard) (others : List WaitQueueGuard) :
      (↑(first :: others) : Multiset WaitQueueGuard) + rest = first ::ₘ (↑others + rest) := by
    rw [← Multiset.cons_coe, Multiset.cons_add]
  cases moved with
  | compares notWake => exact simulated_goto rest rfl
  | refuses result noQueue => exact simulated_goto rest rfl
  | getsWoken isGot => exact simulated_get rest isGot rfl rfl
  | inserts isWait => exact simulated_getOrInsert rest rfl
  | misses => exact simulated_goto rest rfl
  | getsRequeued isGot => exact simulated_get rest isGot rfl rfl
  | insertsUnused => exact simulated_getOrInsert rest rfl
  | insertsTarget wq =>
      apply simulated_getOrInsert rest
      exact Multiset.coe_eq_coe.mpr (List.Perm.swap _ _ _)
  | rejectsTimeout wq error => exact simulated_goto rest rfl
  | sleeps wq =>
      refine Or.inr ⟨.sleep ⟨args.uaddr, wq, false⟩ task, ?_, rfl⟩
      simp [guardNext, guardsWith, FutexPhase.guards, FutexEffect.goto]
  | stops wq wq2 remaining count noneLeft =>
      apply simulated_goto rest
      cases wq2 <;> rfl
  | @notifies wq woken after wq2 remaining count isWoken =>
      refine Or.inr ⟨.notifyOne ⟨args.uaddr, wq, false⟩, ?_, rfl⟩
      cases wq2 <;>
        simp [guardNext, guardsWith, FutexPhase.guards, isWoken]
  | finishes wq count => exact simulated_goto rest rfl
  | requeues wq wq2 count =>
      refine
        Or.inr ⟨.requeue ⟨args.uaddr, wq, false⟩ ⟨args.uaddr2, wq2, false⟩ args.value2, ?_, rfl⟩
      simp [guardNext, guardsWith, FutexPhase.guards, FutexEffect.goto]
  | leavesQueue wq wq2 count => exact simulated_goto rest rfl
  | returns result => exact simulated_goto rest rfl
  | @dropsInner guard others result isDropped =>
      refine Or.inr ⟨.dropInner guard, ?_, rfl⟩
      simp [guardNext, guardsWith, FutexPhase.guards, FutexEffect.goto, isDropped, guardsEq]
  | @dropsBody guard others result isDropped =>
      refine Or.inr ⟨.dropBody guard, ?_, rfl⟩
      simp [guardNext, guardsWith, FutexPhase.guards, FutexEffect.goto, isDropped, guardsEq]

end Effects

theorem exists_rest_flatMap {α β : Type} (contents : α → List β) {items : List α} {index : Nat}
    {item : α} (found : items[index]? = some item) :
    ∃ rest : Multiset β,
      (↑(items.flatMap contents) : Multiset β) = ↑(contents item) + rest ∧
        ∀ change : α → α,
          (↑((items.modify index change).flatMap contents) : Multiset β) =
            ↑(contents (change item)) + rest := by
  induction items generalizing index with
  | nil => cases found
  | cons first others ih =>
      cases index with
      | zero =>
          obtain rfl := Option.some.inj found
          refine ⟨↑(others.flatMap contents), ?_, ?_⟩
          · rw [List.flatMap_cons, Multiset.coe_add]
          · intro change
            rw [List.modify_zero_cons, List.flatMap_cons, Multiset.coe_add]
      | succ index =>
          rw [List.getElem?_cons_succ] at found
          obtain ⟨rest, whole, changed⟩ := ih found
          refine ⟨↑(contents first) + rest, ?_, ?_⟩
          · rw [List.flatMap_cons, ← Multiset.coe_add, whole, add_left_comm]
          · intro change
            rw [List.modify_succ_cons, List.flatMap_cons, ← Multiset.coe_add,
              changed change, add_left_comm]

namespace SysFutexState

def project (state : SysFutexState) : GuardState := ⟨state.futexes, state.guards⟩

theorem exists_rest {state : SysFutexState} {index : Nat} {call : FutexCall}
    (found : state.calls[index]? = some call) :
    ∃ rest : Multiset WaitQueueGuard,
      state.guards = ↑(call.phase.guards call.args) + rest ∧
        ∀ phase, (state.setPhase index phase).guards = ↑(phase.guards call.args) + rest := by
  obtain ⟨rest, whole, changed⟩ :=
    exists_rest_flatMap (fun call : FutexCall => call.phase.guards call.args) found
  exact ⟨rest, whole, fun phase => changed fun call => ⟨call.args, phase⟩⟩

theorem guards_wake (state : SysFutexState) (woken : Option Nat) :
    (state.wake woken).guards = state.guards := by
  cases woken with
  | none => rfl
  | some task =>
      cases found : state.calls[task]? with
      | none =>
          have same : state.calls.modify task (fun call =>
                  { call with phase := call.phase.wake call.args }) =
                state.calls :=
            List.modify_eq_self (List.getElem?_eq_none_iff.mp found)
          rw [wake, same]
      | some call =>
          obtain ⟨rest, whole, changed⟩ :=
            exists_rest_flatMap (fun call : FutexCall => call.phase.guards call.args) found
          have woken := changed fun call =>
              { call with phase := call.phase.wake call.args }
          rw [FutexPhase.guards_wake, ← whole] at woken
          exact woken

theorem getElem?_wake {state : SysFutexState} {index : Nat} {call : FutexCall}
    (found : state.calls[index]? = some call) (woken : Option Nat) :
    ∃ later, (state.wake woken).calls[index]? = some later ∧ later.args = call.args ∧
      later.phase.guards later.args = call.phase.guards call.args := by
  cases woken with
  | none => exact ⟨call, found, rfl, rfl⟩
  | some task =>
      by_cases same : task = index
      · refine ⟨⟨call.args, call.phase.wake call.args⟩, ?_, rfl, ?_⟩
        · simp [wake, same, found]
        · exact FutexPhase.guards_wake call.args call.phase
      · refine ⟨call, ?_, rfl, rfl⟩
        rw [wake, List.getElem?_modify_ne _ _ same, found]

theorem getElem?_apply (state : SysFutexState) (index : Nat) (effect : FutexEffect) (asked : Nat) :
    (state.apply index effect).calls[asked]? = (state.calls[asked]?).map fun call =>
        { call with
          phase :=
            if asked = index then effect.phase
            else if effect.woken = some asked then call.phase.wake call.args
            else call.phase } := by
  have woken : (state.wake effect.woken).calls[asked]? = (state.calls[asked]?).map fun call =>
          { call with
            phase :=
              if effect.woken = some asked then call.phase.wake call.args
              else call.phase } := by
    cases effect.woken with
    | none => simp [wake]
    | some task =>
        rw [wake, List.getElem?_modify]
        by_cases same : task = asked
        · simp [same]
        · simp [same]
  have applied :
      (state.apply index effect).calls = (state.wake effect.woken).calls.modify index fun call =>
          { call with phase := effect.phase } := by
    rw [apply, setPhase]
    cases effect.woken <;> rfl
  rw [applied, List.getElem?_modify, woken]
  cases state.calls[asked]? with
  | none => rfl
  | some call =>
      by_cases same : asked = index
      · simp [same]
      · simp [same, Ne.symm same]

theorem simulated_apply {state : SysFutexState} {index : Nat} {call : FutexCall}
    {effect : FutexEffect}
    (found : state.calls[index]? = some call)
    (stepped : futexStep state.word state.futexes index call.args call.phase = some effect) :
    Simulated state.project (state.apply index effect).project
      effect.inserted := by
  let changed : SysFutexState :=
    { state with
      futexes := effect.futexes
      inserted := effect.inserted ++ state.inserted }
  have changedFound : changed.calls[index]? = some call := found
  obtain ⟨later, laterFound, sameArgs, sameGuards⟩ := getElem?_wake changedFound effect.woken
  obtain ⟨rest, whole, moved⟩ := exists_rest laterFound
  rw [guards_wake, sameGuards] at whole
  have before :
      state.project =
        guardsWith call.args state.futexes call.phase rest := by
    rw [project, guardsWith, ← whole]
    rfl
  have after :
      (state.apply index effect).project =
        guardsWith call.args effect.futexes effect.phase rest := by
    have guardsAfter := moved effect.phase
    rw [sameArgs] at guardsAfter
    rw [guardsWith, ← guardsAfter, project, apply]
    cases effect.woken <;> rfl
  rw [before, after]
  exact simulated_futexMove rest (.of_futexStep stepped)

end SysFutexState

theorem simulated_sysFutexNext {source target : SysFutexState} {action : SysFutexAction}
    (stepped : sysFutexNext source action = some target) :
    ∃ inserted, Simulated source.project target.project inserted ∧
      target.inserted = inserted ++ source.inserted := by
  cases action with
  | store addr value =>
      cases stepped
      exact ⟨[], Or.inl ⟨rfl, rfl⟩, rfl⟩
  | sysFutex args =>
      cases stepped
      refine ⟨[], Or.inl ⟨?_, rfl⟩, rfl⟩
      simp [SysFutexState.project, SysFutexState.guards, FutexPhase.guards]
  | step index =>
      obtain ⟨call, found, applied⟩ := Option.bind_eq_some_iff.mp stepped
      obtain ⟨effect, effects, rfl⟩ := Option.map_eq_some_iff.mp applied
      refine ⟨effect.inserted, SysFutexState.simulated_apply found effects, ?_⟩
      rw [SysFutexState.apply]
      cases effect.woken <;> rfl
  | expire index =>
      obtain ⟨call, found, expired⟩ := Option.bind_eq_some_iff.mp stepped
      unfold SysFutexState.expire at expired
      split at expired
      · obtain ⟨queue, -, rfl⟩ := Option.map_eq_some_iff.mp expired
        refine ⟨[], Or.inr ⟨.leave queue index, ?_, rfl⟩, rfl⟩
        simp only [guardNext, SysFutexState.project, SysFutexState.guards_wake]
        rfl
      · cases expired

/-- The calls use the table as `guardMachine` does, and its keys are the
addresses that were inserted. -/
structure SysFutexInvariant (state : SysFutexState) : Prop where
  guarded : guardMachine.Reachable state.project
  keys : ∀ addr, (state.futexes.table addr).isSome = true ↔ addr ∈ state.inserted

theorem SysFutexInvariant.step {source target : SysFutexState} {action : SysFutexAction}
    (holds : SysFutexInvariant source)
    (stepped : sysFutexNext source action = some target) :
    SysFutexInvariant target := by
  obtain ⟨inserted, simulated, isInserted⟩ := simulated_sysFutexNext stepped
  rcases simulated with ⟨same, rfl⟩ | ⟨guardAction, guardStep, rfl⟩
  · have sameFutexes : target.futexes = source.futexes := congrArg GuardState.futexes same
    refine ⟨same ▸ holds.guarded, ?_⟩
    intro addr
    rw [sameFutexes, isInserted]
    exact holds.keys addr
  · refine ⟨holds.guarded.step guardAction guardStep, ?_⟩
    intro addr
    have hasKey := guardNext_has_key (GuardInvariant.of_reachable holds.guarded) guardStep addr
    rw [isInserted, List.mem_append, ← holds.keys addr]
    exact hasKey

theorem SysFutexInvariant.of_reachable {state : SysFutexState}
    (reached : sysFutexMachine.Reachable state) :
    SysFutexInvariant state := by
  refine Machine.Reachable.invariant ?_ ?_ reached
  · rintro ⟨word, futexes, calls, inserted⟩ ⟨rfl, rfl, rfl⟩
    refine ⟨Machine.Reachable.start rfl, ?_⟩
    intro addr
    simp [FutexTable.new]
  · intro source action target _ holds stepped
    exact holds.step stepped

/-! ## Reclaiming queues -/

namespace SysFutexState

def InUse (state : SysFutexState) (addr : Nat) : Prop :=
  (∃ guard ∈ state.guards, guard.key = addr) ∨
    ∃ queue, state.futexes.table addr = some queue ∧ state.futexes.tasksOf queue ≠ []

def sleepers (state : SysFutexState) : Nat :=
  ∑ queue ∈ Finset.range state.futexes.queues.length, (state.futexes.tasksOf queue).length

def Reclaimed (state : SysFutexState) : Prop :=
  (∀ addr, ¬ state.InUse addr → state.futexes.table addr = none) ∧
    ∀ keys : Finset Nat,
      (∀ key ∈ keys, (state.futexes.table key).isSome = true) →
        keys.card ≤ state.guards.card + state.sleepers

theorem card_le_sleepers {state : SysFutexState} (holds : GuardInvariant state.project)
    {keys : Finset Nat}
    (occupied :
      ∀ key ∈ keys, ∃ queue, state.futexes.table key = some queue ∧
        state.futexes.tasksOf queue ≠ []) :
    keys.card ≤ state.sleepers := by
  let queueAt (key : Nat) : Nat := (state.futexes.table key).getD 0
  have queueAtEq :
      ∀ key ∈ keys, state.futexes.table key = some (queueAt key) ∧
        state.futexes.tasksOf (queueAt key) ≠ [] := by
    intro key member
    obtain ⟨queue, found, nonempty⟩ := occupied key member
    have isQueue : queueAt key = queue := by simp [queueAt, found]
    rw [isQueue]
    exact ⟨found, nonempty⟩
  have injective : Set.InjOn queueAt keys := by
    intro left leftMember right rightMember same
    have leftFound := (queueAtEq left leftMember).1
    have rightFound := (queueAtEq right rightMember).1
    rw [same] at leftFound
    exact holds.single left right _ leftFound rightFound
  have inRange :
      keys.image queueAt ⊆ Finset.range state.futexes.queues.length := by
    intro queue member
    obtain ⟨key, keyMember, rfl⟩ := Finset.mem_image.mp member
    exact Finset.mem_range.mpr (holds.known key _ (queueAtEq key keyMember).1)
  calc
    keys.card = (keys.image queueAt).card := (Finset.card_image_of_injOn injective).symm
    _ = ∑ _queue ∈ keys.image queueAt, 1 := Finset.card_eq_sum_ones _
    _ ≤ ∑ queue ∈ keys.image queueAt, (state.futexes.tasksOf queue).length := by
        apply Finset.sum_le_sum
        intro queue member
        obtain ⟨key, keyMember, rfl⟩ := Finset.mem_image.mp member
        exact List.length_pos_iff.mpr (queueAtEq key keyMember).2
    _ ≤ state.sleepers := Finset.sum_le_sum_of_subset inRange

theorem card_le_of_inUse {state : SysFutexState} (holds : GuardInvariant state.project)
    {keys : Finset Nat} (inUse : ∀ key ∈ keys, state.InUse key) :
    keys.card ≤ state.guards.card + state.sleepers := by
  let guarded := (state.guards.map WaitQueueGuard.key).toFinset
  have guardedLe : (keys ∩ guarded).card ≤ state.guards.card := by
    calc
      (keys ∩ guarded).card ≤ guarded.card := Finset.card_le_card Finset.inter_subset_right
      _ ≤ (state.guards.map WaitQueueGuard.key).card := Multiset.toFinset_card_le _
      _ = state.guards.card := Multiset.card_map _ _
  have sleepingLe : (keys \ guarded).card ≤ state.sleepers := by
    apply card_le_sleepers holds
    intro key member
    obtain ⟨isKey, notGuarded⟩ := Finset.mem_sdiff.mp member
    rcases inUse key isKey with ⟨guard, isGuard, rfl⟩ | sleeping
    · refine absurd ?_ notGuarded
      exact Multiset.mem_toFinset.mpr (Multiset.mem_map_of_mem _ isGuard)
    · exact sleeping
  have parts := Finset.card_inter_add_card_sdiff keys guarded
  omega

end SysFutexState

/-- In every run, the queues are reclaimed exactly as long as every address
that a wait or a requeue has inserted is still in use. -/
theorem futex_reclaimed_iff_inserted_inUse
    {state : SysFutexState} (reached : sysFutexMachine.Reachable state) :
    state.Reclaimed ↔ ∀ addr ∈ state.inserted, state.InUse addr := by
  have holds := SysFutexInvariant.of_reachable reached
  constructor
  · rintro ⟨unusedGone, -⟩ addr inserted
    by_contra unused
    have present := (holds.keys addr).mpr inserted
    rw [unusedGone addr unused] at present
    cases present
  · intro inUse
    refine ⟨?_, ?_⟩
    · intro addr unused
      cases found : state.futexes.table addr with
      | none => rfl
      | some queue =>
          have inserted : addr ∈ state.inserted := (holds.keys addr).mp (by rw [found]; rfl)
          exact absurd (inUse addr inserted) unused
    · intro keys inTable
      apply SysFutexState.card_le_of_inUse (GuardInvariant.of_reachable holds.guarded)
      intro key member
      exact inUse key ((holds.keys key).mp (inTable key member))

def plainArgs (futexOp value : BitVec 32) : FutexArgs where
  uaddr := 64
  futexOp := futexOp
  value := value
  timeout := 0
  uaddr2 := 128
  value3 := 0
  uaddrAccess := .ok ()
  timeoutAccess := .ok ()

def noFutexCalls : SysFutexState := ⟨fun _ => 0, .new, [], []⟩

/-- While a `FUTEX_WAIT` sleeps, its queue is in use. -/
theorem futex_reclaimed_while_asleep :
    ∃ state, sysFutexMachine.Reachable state ∧ state.futexes.tasksOf 0 = [0] ∧ state.Reclaimed := by
  obtain ⟨state, reached, observed⟩ :=
    @Machine.exists_reachable_of_exec _ _ sysFutexMachine noFutexCalls
      [.sysFutex (plainArgs futexWait 0), .step 0, .step 0, .step 0]
      (fun state => decide
        (state.futexes.tasksOf 0 = [0] ∧ state.inserted = [64] ∧ ⟨64, 0, false⟩ ∈ state.guards))
      ⟨rfl, rfl, rfl⟩ (by decide +kernel)
  obtain ⟨sleeping, inserted, guarded⟩ := of_decide_eq_true observed
  refine ⟨state, reached, sleeping, ?_⟩
  rw [futex_reclaimed_iff_inserted_inUse reached, inserted]
  intro addr isInserted
  obtain rfl := List.mem_singleton.mp isInserted
  exact Or.inl ⟨_, guarded, rfl⟩

/-- A `FUTEX_REQUEUE` without waiters has returned, no guard is alive and no
task sleeps, but the queue it made for its second address stays. -/
theorem futex_requeue_leaves_queue :
    ∃ state, sysFutexMachine.Reachable state ∧
      (state.calls.map FutexCall.phase) = [.returned (.ok 0)] ∧
      state.guards = 0 ∧ ¬ state.InUse 128 ∧
      state.futexes.table 128 = some 0 ∧ ¬ state.Reclaimed := by
  obtain ⟨state, reached, observed⟩ :=
    @Machine.exists_reachable_of_exec _ _ sysFutexMachine noFutexCalls
      [.sysFutex (plainArgs futexRequeue 1), .step 0, .step 0, .step 0, .step 0, .step 0, .step 0]
      (fun state => decide
        ((state.calls.map FutexCall.phase) = [.returned (.ok 0)] ∧
          state.guards = 0 ∧ state.futexes.table 128 = some 0 ∧
          state.futexes.tasksOf 0 = []))
      ⟨rfl, rfl, rfl⟩ (by decide +kernel)
  obtain ⟨returned, noGuards, found, noTasks⟩ := of_decide_eq_true observed
  have unused : ¬ state.InUse 128 := by
    rintro (⟨guard, isGuard, -⟩ | ⟨queue, isQueue, sleeping⟩)
    · rw [noGuards] at isGuard
      exact Multiset.notMem_zero guard isGuard
    · obtain rfl := Option.some.inj (found.symm.trans isQueue)
      exact sleeping noTasks
  refine ⟨state, reached, returned, noGuards, unused, found, ?_⟩
  intro reclaimed
  rw [reclaimed.1 128 unused] at found
  cases found

end Vegar.Task

import Mathlib.Data.Multiset.AddSub
import Mathlib.Data.Multiset.Count
import Vegar.Lib.Machine
import Vegar.Task.FutexTable

/-!
# The guards of the futex table

`FutexTable::get`, `FutexTable::get_or_insert` and the drop of
`WaitQueueGuard` of `core/src/futex.rs`.  The body of `drop` runs under the
lock of the table; the guard's own reference is given back after it.  Both
references are counted when `drop` tests the counter, so the test never
succeeds.
-/

namespace Vegar.Task

open Vegar.Lib

namespace FutexTable

def strongOf (futexes : FutexTable) (queue : Nat) : Nat :=
  ((futexes.queues[queue]?).map WaitQueue.strong).getD 0

/-- The body of `WaitQueueGuard::drop`. -/
def dropBody (futexes : FutexTable) (key queue : Nat) : FutexTable :=
  if futexes.removesKey queue then
    match futexes.table key with
    | none => futexes
    | some stored =>
        { futexes with
          table := Function.update futexes.table key none }.setStrong stored (· - 1)
  else futexes

/-- The reference a guard holds is dropped after the body of its `drop`. -/
def dropInner (futexes : FutexTable) (queue : Nat) : FutexTable := futexes.setStrong queue (· - 1)

/-- `WaitQueue::requeue`: the first tasks of one queue move to another. -/
def requeue (futexes : FutexTable) (count source target : Nat) :
    Nat × FutexTable :=
  let moved := (futexes.tasksOf source).take count
  (moved.length, (futexes.setTasks source (List.drop count)).setTasks target (· ++ moved))

theorem dropGuard_eq (futexes : FutexTable) (key queue : Nat) :
    futexes.dropGuard key queue = (futexes.dropBody key queue).dropInner queue := by
  unfold dropGuard dropBody dropInner
  split
  · cases futexes.table key <;> rfl
  · rfl

section Counters

variable (futexes : FutexTable)

@[simp]
theorem table_setStrong (queue : Nat) (change : Nat → Nat) :
    (futexes.setStrong queue change).table = futexes.table :=
  rfl

@[simp]
theorem table_setTasks (queue : Nat) (change : List Nat → List Nat) :
    (futexes.setTasks queue change).table = futexes.table :=
  rfl

@[simp]
theorem length_setStrong (queue : Nat) (change : Nat → Nat) :
    (futexes.setStrong queue change).queues.length =
      futexes.queues.length := by
  simp [setStrong]

@[simp]
theorem length_setTasks (queue : Nat) (change : List Nat → List Nat) :
    (futexes.setTasks queue change).queues.length =
      futexes.queues.length := by
  simp [setTasks]

@[simp]
theorem strongOf_setTasks (queue asked : Nat) (change : List Nat → List Nat) :
    (futexes.setTasks queue change).strongOf asked =
      futexes.strongOf asked := by
  apply congrArg (Option.getD · 0)
  exact Roster.map_getElem?_modify fun _ => rfl

theorem strongOf_setStrong {queue : Nat} (asked : Nat)
    (change : Nat → Nat) (exists_ : queue < futexes.queues.length) :
    (futexes.setStrong queue change).strongOf asked =
      if asked = queue then change (futexes.strongOf queue)
      else futexes.strongOf asked := by
  unfold strongOf setStrong
  rw [List.getElem?_modify]
  by_cases same : asked = queue
  · subst same
    rw [List.getElem?_eq_getElem exists_]
    simp
  · cases futexes.queues[asked]? <;> simp [same, Ne.symm same]

theorem table_getOrInsert_of_some {key queue : Nat} (addr : Nat)
    (found : futexes.table key = some queue) :
    (futexes.getOrInsert addr).2.table key = some queue := by
  unfold getOrInsert
  split
  · exact found
  · next missing =>
      have other : key ≠ addr := by
        rintro rfl
        rw [missing] at found
        cases found
      exact (Function.update_of_ne other _ _).trans found

theorem isSome_table_getOrInsert (addr key : Nat) :
    ((futexes.getOrInsert addr).2.table key).isSome = true ↔
      key = addr ∨ (futexes.table key).isSome = true := by
  by_cases same : key = addr
  · subst same
    unfold getOrInsert
    cases found : futexes.table key <;> simp [found]
  · unfold getOrInsert
    cases futexes.table addr <;> simp [same]

theorem table_notifyOne {futexes after : FutexTable} {queue task : Nat}
    (woken : futexes.notifyOne queue = some (task, after)) :
    after.table = futexes.table := by
  unfold notifyOne at woken
  split at woken
  · cases woken
  · cases woken
    rfl

theorem removesKey_eq_false {futexes : FutexTable} {queue : Nat}
    (shared : futexes.strongOf queue ≠ 1) :
    futexes.removesKey queue = false := by
  unfold removesKey
  unfold strongOf at shared
  cases found : futexes.queues[queue]? with
  | none => rfl
  | some entry =>
      simp only [found, Option.map_some, Option.getD_some] at shared
      simp [shared]

theorem lt_length_of_mem_tasksOf {futexes : FutexTable} {queue task : Nat}
    (sleeps : task ∈ futexes.tasksOf queue) :
    queue < futexes.queues.length := by
  apply Nat.lt_of_not_le
  intro beyond
  rw [tasksOf, List.getElem?_eq_none beyond] at sleeps
  cases sleeps

end Counters

end FutexTable

/-! ## Guards -/

/-- `WaitQueueGuard`; `dropped` once the body of its `drop` has run. -/
structure WaitQueueGuard where
  key : Nat
  inner : Nat
  dropped : Bool
  deriving DecidableEq, Repr

structure GuardState where
  futexes : FutexTable
  guards : Multiset WaitQueueGuard

inductive GuardAction where
  | get (addr : Nat)
  | getOrInsert (addr : Nat)
  | dropBody (guard : WaitQueueGuard)
  | dropInner (guard : WaitQueueGuard)
  | sleep (guard : WaitQueueGuard) (task : Nat)
  | leave (queue task : Nat)
  | notifyOne (guard : WaitQueueGuard)
  | requeue (guard target : WaitQueueGuard) (count : Nat)
  deriving DecidableEq, Repr

def guardNext (state : GuardState) : GuardAction → Option GuardState
  | .get addr =>
      match state.futexes.get addr with
      | none => some state
      | some (queue, futexes) =>
          some ⟨futexes, ⟨addr, queue, false⟩ ::ₘ state.guards⟩
  | .getOrInsert addr =>
      let inserted := state.futexes.getOrInsert addr
      some ⟨inserted.2, ⟨addr, inserted.1, false⟩ ::ₘ state.guards⟩
  | .dropBody guard =>
      if guard ∈ state.guards ∧ guard.dropped = false then
        some
          ⟨state.futexes.dropBody guard.key guard.inner,
            { guard with dropped := true } ::ₘ state.guards.erase guard⟩
      else none
  | .dropInner guard =>
      if guard ∈ state.guards ∧ guard.dropped = true then
        some ⟨state.futexes.dropInner guard.inner, state.guards.erase guard⟩
      else none
  | .sleep guard task =>
      if guard ∈ state.guards ∧ guard.dropped = false then
        some { state with futexes := state.futexes.enqueue guard.inner task }
      else none
  | .leave queue task =>
      some { state with futexes := state.futexes.remove queue task }
  | .notifyOne guard =>
      if guard ∈ state.guards ∧ guard.dropped = false then
        match state.futexes.notifyOne guard.inner with
        | none => some state
        | some (_, futexes) => some { state with futexes := futexes }
      else none
  | .requeue guard target count =>
      if (guard ∈ state.guards ∧ guard.dropped = false) ∧
          target ∈ state.guards ∧ target.dropped = false then
        some
          { state with
            futexes := (state.futexes.requeue count guard.inner target.inner).2 }
      else none

def guardMachine : Machine GuardState GuardAction where
  start state := state = ⟨.new, 0⟩
  next := guardNext

/-! ## The counters -/

/-- Every queue is in the table under one key for good; its counter counts the
table and the guards; a guard's key leads to the queue of the guard. -/
structure GuardInvariant (state : GuardState) : Prop where
  stored : ∀ guard ∈ state.guards, state.futexes.table guard.key = some guard.inner
  known : ∀ key queue, state.futexes.table key = some queue → queue < state.futexes.queues.length
  keyed : ∀ queue, queue < state.futexes.queues.length → ∃ key, state.futexes.table key = some queue
  single :
    ∀ left right queue, state.futexes.table left = some queue →
      state.futexes.table right = some queue → left = right
  counted :
    ∀ queue, queue < state.futexes.queues.length →
      state.futexes.strongOf queue = state.guards.countP (fun guard => guard.inner = queue) + 1

namespace GuardInvariant

variable {state : GuardState}

theorem lt_length (holds : GuardInvariant state) {guard : WaitQueueGuard}
    (member : guard ∈ state.guards) :
    guard.inner < state.futexes.queues.length :=
  holds.known _ _ (holds.stored guard member)

theorem strongOf_ne_one (holds : GuardInvariant state)
    {guard : WaitQueueGuard} (member : guard ∈ state.guards) :
    state.futexes.strongOf guard.inner ≠ 1 := by
  have counted := holds.counted guard.inner (holds.lt_length member)
  have present : 0 < state.guards.countP fun other => other.inner = guard.inner :=
    Multiset.countP_pos.mpr ⟨guard, member, rfl⟩
  omega

theorem dropBody_eq (holds : GuardInvariant state)
    {guard : WaitQueueGuard} (member : guard ∈ state.guards) :
    state.futexes.dropBody guard.key guard.inner = state.futexes := by
  have kept := FutexTable.removesKey_eq_false (holds.strongOf_ne_one member)
  rw [FutexTable.dropBody, kept, if_neg Bool.false_ne_true]

theorem of_setTasks (holds : GuardInvariant state) (queue : Nat) (change : List Nat → List Nat) :
    GuardInvariant { state with futexes := state.futexes.setTasks queue change } where
  stored := holds.stored
  known := by simpa using holds.known
  keyed := by simpa using holds.keyed
  single := holds.single
  counted := by simpa using holds.counted

theorem of_setStrong_add (holds : GuardInvariant state)
    {addr queue : Nat} (found : state.futexes.table addr = some queue) :
    GuardInvariant
      ⟨state.futexes.setStrong queue (· + 1), ⟨addr, queue, false⟩ ::ₘ state.guards⟩ where
  stored guard member := by
    rcases Multiset.mem_cons.mp member with rfl | old
    · exact found
    · exact holds.stored guard old
  known := by simpa using holds.known
  keyed := by simpa using holds.keyed
  single := holds.single
  counted asked bounded := by
    have exists_ := holds.known addr queue found
    rw [FutexTable.length_setStrong] at bounded
    have counted := holds.counted asked bounded
    rw [FutexTable.strongOf_setStrong _ _ _ exists_, Multiset.countP_cons]
    by_cases same : asked = queue
    · subst same
      rw [if_pos rfl, if_pos rfl, counted]
    · rw [if_neg same, if_neg (Ne.symm same), counted]

theorem of_dropInner (holds : GuardInvariant state)
    {guard : WaitQueueGuard} (member : guard ∈ state.guards) :
    GuardInvariant ⟨state.futexes.dropInner guard.inner, state.guards.erase guard⟩ where
  stored other otherMember := holds.stored other (Multiset.mem_of_mem_erase otherMember)
  known := by simpa [FutexTable.dropInner] using holds.known
  keyed := by simpa [FutexTable.dropInner] using holds.keyed
  single := holds.single
  counted asked bounded := by
    have exists_ := holds.lt_length member
    rw [FutexTable.dropInner, FutexTable.length_setStrong] at bounded
    have counted := holds.counted asked bounded
    rw [← Multiset.cons_erase member, Multiset.countP_cons] at counted
    rw [FutexTable.dropInner, FutexTable.strongOf_setStrong _ _ _ exists_]
    by_cases same : asked = guard.inner
    · subst same
      rw [if_pos rfl] at counted ⊢
      rw [counted, Nat.add_sub_cancel]
    · rw [if_neg (Ne.symm same), Nat.add_zero] at counted
      rw [if_neg same, counted]

theorem of_insert (holds : GuardInvariant state)
    {addr : Nat} (missing : state.futexes.table addr = none) :
    GuardInvariant
      ⟨(state.futexes.getOrInsert addr).2,
        ⟨addr, (state.futexes.getOrInsert addr).1, false⟩ ::ₘ state.guards⟩ := by
  have isInsert :
      state.futexes.getOrInsert addr =
        (state.futexes.queues.length,
          { table := Function.update state.futexes.table addr (some state.futexes.queues.length)
            queues := state.futexes.queues ++ [⟨[], 2⟩] }) := by
    rw [FutexTable.getOrInsert, missing]
  rw [isInsert]
  have other : ∀ key queue, state.futexes.table key = some queue → key ≠ addr := by
    rintro key queue found rfl
    rw [missing] at found
    cases found
  constructor
  · intro guard member
    rcases Multiset.mem_cons.mp member with rfl | old
    · exact Function.update_self _ _ _
    · have stored := holds.stored guard old
      exact (Function.update_of_ne (other _ _ stored) _ _).trans stored
  · intro key queue found
    simp only [List.length_append, List.length_singleton]
    by_cases same : key = addr
    · subst same
      simp only [Function.update_self, Option.some.injEq] at found
      omega
    · simp only [Function.update_of_ne same] at found
      have bounded := holds.known key queue found
      omega
  · intro queue bounded
    simp only [List.length_append, List.length_singleton] at bounded
    by_cases old : queue < state.futexes.queues.length
    · obtain ⟨key, found⟩ := holds.keyed queue old
      exact ⟨key, (Function.update_of_ne (other _ _ found) _ _).trans found⟩
    · obtain rfl : queue = state.futexes.queues.length := by omega
      exact ⟨addr, Function.update_self _ _ _⟩
  · intro left right queue leftFound rightFound
    by_cases leftNew : left = addr
    · by_cases rightNew : right = addr
      · rw [leftNew, rightNew]
      · simp only [leftNew, Function.update_self, Option.some.injEq] at leftFound
        simp only [Function.update_of_ne rightNew] at rightFound
        have bounded := holds.known right queue rightFound
        omega
    · simp only [Function.update_of_ne leftNew] at leftFound
      by_cases rightNew : right = addr
      · simp only [rightNew, Function.update_self, Option.some.injEq] at rightFound
        have bounded := holds.known left queue leftFound
        omega
      · simp only [Function.update_of_ne rightNew] at rightFound
        exact holds.single left right queue leftFound rightFound
  · intro queue bounded
    simp only [List.length_append, List.length_singleton] at bounded
    rw [Multiset.countP_cons]
    by_cases old : queue < state.futexes.queues.length
    · have counted := holds.counted queue old
      have notNew : state.futexes.queues.length ≠ queue := by omega
      rw [if_neg notNew, Nat.add_zero, ← counted]
      simp only [FutexTable.strongOf, List.getElem?_append_left old]
    · obtain rfl : queue = state.futexes.queues.length := by omega
      have noGuard :
          state.guards.countP (fun guard => guard.inner = state.futexes.queues.length) = 0 := by
        rw [Multiset.countP_eq_zero]
        intro guard member
        exact Nat.ne_of_lt (holds.lt_length member)
      rw [noGuard, if_pos rfl]
      simp [FutexTable.strongOf]

theorem step {source target : GuardState} {action : GuardAction} (holds : GuardInvariant source)
    (stepped : guardNext source action = some target) :
    GuardInvariant target := by
  cases action with
  | get addr =>
      cases found : source.futexes.table addr with
      | none =>
          simp only [guardNext, FutexTable.get, found] at stepped
          cases stepped
          exact holds
      | some queue =>
          simp only [guardNext, FutexTable.get, found] at stepped
          cases stepped
          exact holds.of_setStrong_add found
  | getOrInsert addr =>
      obtain rfl := Option.some.inj stepped
      cases found : source.futexes.table addr with
      | none => exact holds.of_insert found
      | some queue =>
          have isFound :
              source.futexes.getOrInsert addr =
                (queue, source.futexes.setStrong queue (· + 1)) := by
            rw [FutexTable.getOrInsert, found]
          rw [isFound]
          exact holds.of_setStrong_add found
  | dropBody guard =>
      simp only [guardNext, Option.ite_none_right_eq_some] at stepped
      obtain ⟨⟨member, -⟩, ⟨⟩⟩ := stepped
      rw [holds.dropBody_eq member]
      refine ⟨?_, holds.known, holds.keyed, holds.single, ?_⟩
      · intro other otherMember
        rcases Multiset.mem_cons.mp otherMember with rfl | old
        · exact holds.stored guard member
        · exact holds.stored other (Multiset.mem_of_mem_erase old)
      · intro queue bounded
        have counted := holds.counted queue bounded
        rw [← Multiset.cons_erase member, Multiset.countP_cons] at counted
        rw [Multiset.countP_cons]
        exact counted
  | dropInner guard =>
      simp only [guardNext, Option.ite_none_right_eq_some] at stepped
      obtain ⟨⟨member, -⟩, ⟨⟩⟩ := stepped
      exact holds.of_dropInner member
  | sleep guard task =>
      simp only [guardNext, Option.ite_none_right_eq_some] at stepped
      obtain ⟨-, ⟨⟩⟩ := stepped
      exact holds.of_setTasks _ _
  | leave queue task =>
      cases stepped
      exact holds.of_setTasks _ _
  | notifyOne guard =>
      simp only [guardNext, Option.ite_none_right_eq_some] at stepped
      obtain ⟨-, notified⟩ := stepped
      unfold FutexTable.notifyOne at notified
      cases tasks : source.futexes.tasksOf guard.inner with
      | nil =>
          simp only [tasks] at notified
          cases notified
          exact holds
      | cons first rest =>
          simp only [tasks] at notified
          cases notified
          exact holds.of_setTasks _ _
  | requeue guard other count =>
      simp only [guardNext, Option.ite_none_right_eq_some] at stepped
      obtain ⟨-, ⟨⟩⟩ := stepped
      exact (holds.of_setTasks guard.inner (List.drop count)).of_setTasks
          other.inner (· ++ (source.futexes.tasksOf guard.inner).take count)

theorem initial : GuardInvariant ⟨.new, 0⟩ where
  stored := nofun
  known := nofun
  keyed := nofun
  single := nofun
  counted := nofun

theorem of_reachable {state : GuardState}
    (reached : guardMachine.Reachable state) : GuardInvariant state := by
  refine Machine.Reachable.invariant ?_ ?_ reached
  · rintro start rfl
    exact initial
  · intro source action target _ holds stepped
    exact holds.step stepped

end GuardInvariant

/-- The addresses an action passes to `get_or_insert`. -/
def GuardAction.inserts : GuardAction → List Nat
  | .getOrInsert addr => [addr]
  | _ => []

theorem guardNext_table {source target : GuardState} {action : GuardAction}
    (holds : GuardInvariant source)
    (stepped : guardNext source action = some target) :
    (action.inserts = [] ∧ target.futexes.table = source.futexes.table) ∨
      ∃ addr, action.inserts = [addr] ∧ target.futexes = (source.futexes.getOrInsert addr).2 := by
  cases action with
  | get addr =>
      refine Or.inl ⟨rfl, ?_⟩
      simp only [guardNext] at stepped
      split at stepped
      · cases stepped
        rfl
      · next got =>
          cases stepped
          obtain ⟨_, -, isAfter⟩ := Option.map_eq_some_iff.mp got
          obtain ⟨-, rfl⟩ := Prod.mk.inj isAfter
          rfl
  | getOrInsert addr =>
      obtain rfl := Option.some.inj stepped
      exact Or.inr ⟨addr, rfl, rfl⟩
  | dropBody guard =>
      simp only [guardNext, Option.ite_none_right_eq_some] at stepped
      obtain ⟨⟨member, -⟩, ⟨⟩⟩ := stepped
      refine Or.inl ⟨rfl, ?_⟩
      rw [holds.dropBody_eq member]
  | dropInner guard =>
      simp only [guardNext, Option.ite_none_right_eq_some] at stepped
      obtain ⟨-, ⟨⟩⟩ := stepped
      exact Or.inl ⟨rfl, rfl⟩
  | sleep guard task =>
      simp only [guardNext, Option.ite_none_right_eq_some] at stepped
      obtain ⟨-, ⟨⟩⟩ := stepped
      exact Or.inl ⟨rfl, rfl⟩
  | leave left task =>
      cases stepped
      exact Or.inl ⟨rfl, rfl⟩
  | notifyOne guard =>
      simp only [guardNext, Option.ite_none_right_eq_some] at stepped
      obtain ⟨-, notified⟩ := stepped
      refine Or.inl ⟨rfl, ?_⟩
      split at notified
      · cases notified
        rfl
      · next woken =>
          cases notified
          exact FutexTable.table_notifyOne woken
  | requeue guard other count =>
      simp only [guardNext, Option.ite_none_right_eq_some] at stepped
      obtain ⟨-, ⟨⟩⟩ := stepped
      exact Or.inl ⟨rfl, rfl⟩

theorem guardNext_keeps_key {source target : GuardState} {action : GuardAction}
    (holds : GuardInvariant source)
    (stepped : guardNext source action = some target)
    {key queue : Nat} (found : source.futexes.table key = some queue) :
    target.futexes.table key = some queue := by
  rcases guardNext_table holds stepped with ⟨-, same⟩ | ⟨addr, -, inserted⟩
  · rw [same, found]
  · rw [inserted]
    exact FutexTable.table_getOrInsert_of_some _ addr found

theorem guardNext_has_key {source target : GuardState} {action : GuardAction}
    (holds : GuardInvariant source)
    (stepped : guardNext source action = some target) (key : Nat) :
    (target.futexes.table key).isSome = true ↔
      key ∈ action.inserts ∨ (source.futexes.table key).isSome = true := by
  rcases guardNext_table holds stepped with ⟨noInsert, same⟩ | ⟨addr, inserts, inserted⟩
  · simp [noInsert, same]
  · rw [inserts, inserted, List.mem_singleton]
    exact FutexTable.isSome_table_getOrInsert _ addr key

/-- In every reachable state two guards for one key have one queue, which is
the one in the table under that key; and a queue with sleeping tasks is in the
table under a key that no step takes away. -/
theorem one_queue_per_futex_address {state : GuardState} (reached : guardMachine.Reachable state) :
    (∀ left ∈ state.guards, ∀ right ∈ state.guards,
        left.key = right.key → left.inner = right.inner) ∧
      (∀ guard ∈ state.guards, state.futexes.table guard.key = some guard.inner) ∧
      ∀ queue, state.futexes.tasksOf queue ≠ [] →
        ∃ key, state.futexes.table key = some queue ∧
          ∀ action target, guardMachine.next state action = some target →
            target.futexes.table key = some queue := by
  have holds := GuardInvariant.of_reachable reached
  refine ⟨?_, holds.stored, ?_⟩
  · intro left leftMember right rightMember sameKey
    have leftStored := holds.stored left leftMember
    have rightStored := holds.stored right rightMember
    rw [sameKey, rightStored] at leftStored
    exact (Option.some.inj leftStored).symm
  · intro queue sleepers
    obtain ⟨task, sleeps⟩ := List.exists_mem_of_ne_nil _ sleepers
    have bounded := FutexTable.lt_length_of_mem_tasksOf sleeps
    obtain ⟨key, found⟩ := holds.keyed queue bounded
    refine ⟨key, found, ?_⟩
    intro action target stepped
    exact guardNext_keeps_key holds stepped found

/-- A task sleeps with its guard while a second guard is being dropped. -/
theorem one_queue_per_futex_address_sleeper :
    ∃ state, guardMachine.Reachable state ∧
      ⟨64, 0, false⟩ ∈ state.guards ∧ ⟨64, 0, true⟩ ∈ state.guards ∧
      state.futexes.tasksOf 0 = [7] ∧
      ∃ key, state.futexes.table key = some 0 ∧
        ∀ action target, guardMachine.next state action = some target →
          target.futexes.table key = some 0 := by
  obtain ⟨state, reached, observed⟩ := @Machine.exists_reachable_of_exec _ _ guardMachine ⟨.new, 0⟩
      [.getOrInsert 64, .sleep ⟨64, 0, false⟩ 7, .get 64, .dropBody ⟨64, 0, false⟩]
      (fun state => decide
        (⟨64, 0, false⟩ ∈ state.guards ∧ ⟨64, 0, true⟩ ∈ state.guards ∧
          state.futexes.tasksOf 0 = [7]))
      rfl (by decide +kernel)
  obtain ⟨held, dying, sleeper⟩ := of_decide_eq_true observed
  have sleepers : state.futexes.tasksOf 0 ≠ [] := by
    rw [sleeper]
    exact List.cons_ne_nil _ _
  exact ⟨state, reached, held, dying, sleeper, (one_queue_per_futex_address reached).2.2 0 sleepers⟩

end Vegar.Task

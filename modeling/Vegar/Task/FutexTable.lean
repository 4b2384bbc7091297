import Mathlib.Data.List.Basic
import Mathlib.Logic.Function.Basic
import Vegar.Lib.Roster

/-!
# The futex table

`FutexTable` and `WaitQueueGuard` of `core/src/futex.rs`.  Wait queues live
behind an `Arc`; the table and every guard hold a reference, and the counter
is kept explicitly.  A queue lists its sleeping tasks, the first one first.
-/

namespace Vegar.Task

open Vegar.Lib

/-- An `axtask::WaitQueue` behind an `Arc`. -/
structure WaitQueue where
  tasks : List Nat
  strong : Nat
  deriving DecidableEq, Repr

/-- `FutexTable`, with the queues it and its guards refer to. -/
structure FutexTable where
  table : Nat → Option Nat
  queues : List WaitQueue

namespace FutexTable

/-- `FutexTable::new`. -/
def new : FutexTable := ⟨fun _ => none, []⟩

def setStrong (futexes : FutexTable) (queue : Nat) (change : Nat → Nat) :
    FutexTable :=
  { futexes with
    queues := futexes.queues.modify queue fun entry =>
      { entry with strong := change entry.strong } }

def setTasks (futexes : FutexTable) (queue : Nat) (change : List Nat → List Nat) : FutexTable :=
  { futexes with
    queues := futexes.queues.modify queue fun entry =>
      { entry with tasks := change entry.tasks } }

def tasksOf (futexes : FutexTable) (queue : Nat) : List Nat :=
  ((futexes.queues[queue]?).map WaitQueue.tasks).getD []

def waitingOn (futexes : FutexTable) (addr : Nat) : List Nat :=
  match futexes.table addr with
  | some queue => futexes.tasksOf queue
  | none => []

/-- `FutexTable::get`. -/
def get (futexes : FutexTable) (addr : Nat) : Option (Nat × FutexTable) :=
  (futexes.table addr).map fun queue =>
    (queue, futexes.setStrong queue (· + 1))

/-- `FutexTable::get_or_insert`. -/
def getOrInsert (futexes : FutexTable) (addr : Nat) : Nat × FutexTable :=
  match futexes.table addr with
  | some queue => (queue, futexes.setStrong queue (· + 1))
  | none =>
      (futexes.queues.length,
        { table := Function.update futexes.table addr (some futexes.queues.length)
          queues := futexes.queues ++ [⟨[], 2⟩] })

def removesKey (futexes : FutexTable) (queue : Nat) : Bool :=
  match futexes.queues[queue]? with
  | some entry => entry.strong == 1 && entry.tasks.isEmpty
  | none => false

/-- `WaitQueueGuard::drop`, and the drop of the guard's reference after it. -/
def dropGuard (futexes : FutexTable) (key queue : Nat) : FutexTable :=
  if futexes.removesKey queue then
    match futexes.table key with
    | none => futexes.setStrong queue (· - 1)
    | some stored =>
        { futexes with
          table := Function.update futexes.table key none }.setStrong stored
            (· - 1) |>.setStrong queue (· - 1)
  else futexes.setStrong queue (· - 1)

def enqueue (futexes : FutexTable) (queue task : Nat) : FutexTable :=
  futexes.setTasks queue (· ++ [task])

def remove (futexes : FutexTable) (queue task : Nat) : FutexTable :=
  futexes.setTasks queue (·.erase task)

/-- `notify_one`: the first task of the queue is woken. -/
def notifyOne (futexes : FutexTable) (queue : Nat) : Option (Nat × FutexTable) :=
  match futexes.tasksOf queue with
  | [] => none
  | task :: _ => some (task, futexes.setTasks queue List.tail)

/-! ## The tasks of a queue -/

@[simp]
theorem tasksOf_setStrong (futexes : FutexTable) (queue asked : Nat) (change : Nat → Nat) :
    (futexes.setStrong queue change).tasksOf asked =
      futexes.tasksOf asked := by
  apply congrArg (Option.getD · [])
  exact Roster.map_getElem?_modify fun _ => rfl

variable {queue asked : Nat}

theorem tasksOf_setTasks_of_ne (futexes : FutexTable)
    (change : List Nat → List Nat) (different : queue ≠ asked) :
    (futexes.setTasks queue change).tasksOf asked =
      futexes.tasksOf asked := by
  simp only [tasksOf, setTasks, List.getElem?_modify_ne _ _ different]

theorem tasksOf_setTasks_self (futexes : FutexTable) (queue : Nat) {change : List Nat → List Nat}
    (exists_ : queue < futexes.queues.length) :
    (futexes.setTasks queue change).tasksOf queue = change (futexes.tasksOf queue) := by
  unfold tasksOf setTasks
  rw [List.getElem?_modify_eq, List.getElem?_eq_getElem exists_]
  rfl

variable {futexes : FutexTable}

theorem tasksOf_get {after : FutexTable} {addr : Nat}
    (got : futexes.get addr = some (queue, after)) (asked : Nat) :
    after.tasksOf asked = futexes.tasksOf asked := by
  obtain ⟨found, -, isAfter⟩ := Option.map_eq_some_iff.mp got
  obtain ⟨-, rfl⟩ := Prod.mk.inj isAfter
  exact tasksOf_setStrong _ _ _ _

@[simp]
theorem tasksOf_getOrInsert (futexes : FutexTable) (addr asked : Nat) :
    (futexes.getOrInsert addr).2.tasksOf asked = futexes.tasksOf asked := by
  unfold getOrInsert
  cases futexes.table addr with
  | some queue => exact tasksOf_setStrong _ _ _ _
  | none =>
      unfold tasksOf
      by_cases old : asked < futexes.queues.length
      · rw [List.getElem?_append_left old]
      · have missing : futexes.queues[asked]? = none := List.getElem?_eq_none (Nat.le_of_not_lt old)
        rw [List.getElem?_append_right (Nat.le_of_not_lt old), missing]
        cases asked - futexes.queues.length <;> rfl

@[simp]
theorem tasksOf_dropGuard (futexes : FutexTable) (key queue asked : Nat) :
    (futexes.dropGuard key queue).tasksOf asked = futexes.tasksOf asked := by
  unfold dropGuard
  split
  · split
    · exact tasksOf_setStrong _ _ _ _
    · rw [tasksOf_setStrong, tasksOf_setStrong]
      rfl
  · exact tasksOf_setStrong _ _ _ _

variable {other count : Nat}

theorem mem_take_setTasks {change : List Nat → List Nat}
    (ahead : other ∈ (futexes.tasksOf asked).take count)
    (kept : ∀ tasks : List Nat, other ∈ tasks.take count → other ∈ (change tasks).take count) :
    other ∈ ((futexes.setTasks queue change).tasksOf asked).take count := by
  by_cases same : queue = asked
  · subst same
    by_cases exists_ : queue < futexes.queues.length
    · rw [tasksOf_setTasks_self _ _ exists_]
      exact kept _ ahead
    · have missing : futexes.tasksOf queue = [] := by
        rw [tasksOf, List.getElem?_eq_none (Nat.le_of_not_lt exists_)]
        rfl
      rw [missing, List.take_nil] at ahead
      cases ahead
  · rw [tasksOf_setTasks_of_ne _ _ same]
    exact ahead

variable {task : Nat}

theorem mem_take_enqueue (ahead : other ∈ (futexes.tasksOf asked).take count) :
    other ∈ ((futexes.enqueue queue task).tasksOf asked).take count := by
  apply mem_take_setTasks ahead
  intro tasks inside
  rw [List.take_append]
  exact List.mem_append_left _ inside

private theorem mem_take_erase {tasks : List Nat}
    (ahead : other ∈ tasks.take count) (different : other ≠ task) :
    other ∈ (tasks.erase task).take count := by
  induction tasks generalizing count with
  | nil =>
      rw [List.take_nil] at ahead
      cases ahead
  | cons first rest ih =>
      cases count with
      | zero =>
          rw [List.take_zero] at ahead
          cases ahead
      | succ count =>
          rw [List.take_succ_cons] at ahead
          by_cases isTask : first = task
          · subst isTask
            rw [List.erase_cons_head]
            rcases List.mem_cons.mp ahead with here | later
            · exact (different here).elim
            · exact List.take_subset_take_left _ (Nat.le_succ _) later
          · rw [List.erase_cons_tail (by simpa using isTask), List.take_succ_cons]
            rcases List.mem_cons.mp ahead with here | later
            · rw [here]
              exact List.mem_cons_self
            · exact List.mem_cons_of_mem _ (ih later)

theorem mem_take_remove (ahead : other ∈ (futexes.tasksOf asked).take count)
    (different : other ≠ task) :
    other ∈ ((futexes.remove queue task).tasksOf asked).take count := by
  apply mem_take_setTasks ahead
  intro tasks inside
  exact mem_take_erase inside different

theorem notifyOne_eq_some {after : FutexTable}
    (woken : futexes.notifyOne queue = some (task, after)) :
    futexes.tasksOf queue = task :: after.tasksOf queue ∧
      ∀ asked, asked ≠ queue → after.tasksOf asked = futexes.tasksOf asked := by
  unfold notifyOne at woken
  cases tasks : futexes.tasksOf queue with
  | nil =>
      simp [tasks] at woken
  | cons first rest =>
      simp only [tasks, Option.some.injEq, Prod.mk.injEq] at woken
      obtain ⟨rfl, rfl⟩ := woken
      have exists_ : queue < futexes.queues.length := by
        by_contra missing
        rw [tasksOf, List.getElem?_eq_none (Nat.le_of_not_lt missing)] at tasks
        cases tasks
      refine ⟨?_, ?_⟩
      · rw [tasksOf_setTasks_self _ _ exists_, tasks, List.tail_cons]
      · intro asked different
        exact tasksOf_setTasks_of_ne _ _ (Ne.symm different)

theorem notifyOne_eq_none : futexes.notifyOne queue = none ↔ futexes.tasksOf queue = [] := by
  unfold notifyOne
  cases futexes.tasksOf queue with
  | nil => simp
  | cons first rest => simp

end FutexTable

end Vegar.Task

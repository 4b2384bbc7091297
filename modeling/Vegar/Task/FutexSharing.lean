import Vegar.Lib.Roster
import Vegar.Task.Clone
import Vegar.Task.FutexCalls

/-!
# Futexes of processes that share their memory

`sys_clone` of `api/src/imp/task/clone.rs` shares the address space by
`CLONE_VM`, while every process has its own futex table.  `do_exit` of
`api/src/imp/task/exit.rs` clears the word at `clear_child_tid` and wakes one
task in the table of its process, like a `FUTEX_WAKE`.
-/

namespace Vegar.Task

open Vegar.Lib

/-! ## Waiting calls -/

/-- A `FUTEX_WAIT` that has its queue and has not been woken. -/
def FutexPhase.waits : FutexPhase → Bool
  | .holding _ => true
  | .asleep _ => true
  | _ => false

def SysFutexState.Waiting (state : SysFutexState) : Prop :=
  (∃ call ∈ state.calls, call.phase.waits = true) ∨
    ∃ queue ∈ List.range state.futexes.queues.length, state.futexes.tasksOf queue ≠ []

instance (state : SysFutexState) : Decidable state.Waiting := inferInstanceAs (Decidable (_ ∨ _))

/-! ## Processes and tasks -/

/-- What the futexes need of `ProcessData`: the address space and the table,
with the calls that use it. -/
structure FutexProcess where
  aspace : Nat
  calls : SysFutexState

inductive TaskLife where
  | running
  | exiting
  | gone
  deriving DecidableEq, Repr

structure FutexTask where
  process : Nat
  clearChildTid : Nat
  call : Option Nat
  life : TaskLife
  deriving DecidableEq, Repr

/-- All processes and tasks; `aspaces` is the next unused address space. -/
structure SharingState where
  processes : List FutexProcess
  tasks : List FutexTask
  aspaces : Nat

structure ActiveCall where
  task : FutexTask
  process : FutexProcess
  number : Nat
  call : FutexCall

inductive SharingAction where
  | clone (caller : Nat) (flags : BitVec 32) (childTid : Nat) (env : CloneEnv)
  | setTidAddress (caller addr : Nat)
  | store (caller addr : Nat) (value : BitVec 32)
  | sysFutex (caller : Nat) (args : FutexArgs)
  | step (caller : Nat)
  | expire (caller : Nat)
  | exit (caller : Nat) (access : LinuxResult Unit)
  | gone (caller : Nat)

namespace SharingState

def aspaceOf (state : SharingState) (process : Nat) : Option Nat :=
  (state.processes[process]?).map FutexProcess.aspace

def activeCall (state : SharingState) (caller : Nat) : Option ActiveCall :=
  (state.tasks[caller]?).bind fun task =>
    (state.processes[task.process]?).bind fun process =>
      task.call.bind fun number =>
        (process.calls.calls[number]?).map fun call =>
          ⟨task, process, number, call⟩

def isIdle (task : FutexTask) (process : FutexProcess) : Bool :=
  match task.call.bind fun number => process.calls.calls[number]? with
  | none => true
  | some call =>
      match call.phase with
      | .returned _ => true
      | _ => false

def inUserMode (state : SharingState) (caller : Nat) (life : TaskLife) :
    Option (FutexTask × FutexProcess) :=
  (state.tasks[caller]?).bind fun task =>
    (state.processes[task.process]?).bind fun process =>
      if task.life = life ∧ isIdle task process = true then
        some (task, process)
      else none

def setTask (state : SharingState) (caller : Nat) (task : FutexTask) :
    SharingState :=
  { state with tasks := state.tasks.set caller task }

def setCalls (state : SharingState) (process : Nat) (calls : SysFutexState) : SharingState :=
  { state with
    processes := state.processes.modify process fun changed =>
      { changed with calls := calls } }

def storeWord (state : SharingState) (aspace addr : Nat) (value : BitVec 32) : SharingState :=
  { state with
    processes := state.processes.map fun process =>
      if process.aspace = aspace then
        { process with
          calls :=
            { process.calls with
              word := Function.update process.calls.word addr value } }
      else process }

/-- A task enters `sys_futex`. -/
def startCall (state : SharingState) (caller : Nat) (task : FutexTask)
    (args : FutexArgs) : SharingState :=
  match state.processes[task.process]? with
  | none => state
  | some process =>
      (state.setCalls task.process
        { process.calls with
          calls := process.calls.calls ++ [⟨args, .entered⟩] }).setTask
        caller { task with call := some process.calls.calls.length }

/-- `sys_clone`: the new thread joins the process of the caller, or gets one
with the address space of the caller or a copy of it, and a new futex
table. -/
def sysClone (state : SharingState) (task : FutexTask)
    (process : FutexProcess) (flags : BitVec 32) (childTid : Nat)
    (env : CloneEnv) : SharingState :=
  let clearChildTid :=
    if (cloneFlags flags).contains CloneFlags.childCleartid then childTid
    else 0
  match planClone flags env with
  | .error _ => state
  | .ok .thread =>
      { state with
        tasks := state.tasks ++ [⟨task.process, clearChildTid, none, .running⟩] }
  | .ok (.process _) =>
      let shares := (cloneFlags flags).contains CloneFlags.vm
      { processes := state.processes ++
          [⟨if shares then process.aspace else state.aspaces, ⟨process.calls.word, .new, [], []⟩⟩]
        tasks := state.tasks ++ [⟨state.processes.length, clearChildTid, none, .running⟩]
        aspaces := if shares then state.aspaces else state.aspaces + 1 }

end SharingState

/-- The wakeup of `do_exit` takes the steps of a `FUTEX_WAKE` of one task. -/
def exitArgs (clearChildTid : Nat) : FutexArgs where
  uaddr := clearChildTid
  futexOp := futexWake
  value := 1
  timeout := 0
  uaddr2 := 0
  value3 := 0
  uaddrAccess := .ok ()
  timeoutAccess := .ok ()

def sharingNext (state : SharingState) : SharingAction → Option SharingState
  | .clone caller flags childTid env =>
      (state.inUserMode caller .running).map fun found =>
        state.sysClone found.1 found.2 flags childTid env
  | .setTidAddress caller addr =>
      (state.inUserMode caller .running).map fun found =>
        state.setTask caller { found.1 with clearChildTid := addr }
  | .store caller addr value =>
      (state.inUserMode caller .running).map fun found =>
        state.storeWord found.2.aspace addr value
  | .sysFutex caller args =>
      (state.inUserMode caller .running).map fun found =>
        state.startCall caller found.1 args
  | .step caller =>
      (state.activeCall caller).bind fun active =>
        (sysFutexNext active.process.calls (.step active.number)).map
          fun calls => state.setCalls active.task.process calls
  | .expire caller =>
      (state.activeCall caller).bind fun active =>
        (sysFutexNext active.process.calls (.expire active.number)).map
          fun calls => state.setCalls active.task.process calls
  | .exit caller access =>
      (state.inUserMode caller .running).map fun found =>
        let leaving := { found.1 with life := .exiting, call := none }
        match access with
        | .error _ => state.setTask caller leaving
        | .ok () =>
            (state.storeWord found.2.aspace leaving.clearChildTid 0).startCall
              caller leaving (exitArgs leaving.clearChildTid)
  | .gone caller =>
      (state.inUserMode caller .exiting).map fun found =>
        state.setTask caller { found.1 with life := .gone }

def sharingMachine : Machine SharingState SharingAction where
  start state := ∃ word, state =
      { processes := [⟨0, ⟨word, .new, [], []⟩⟩]
        tasks := [⟨0, 0, none, .running⟩]
        aspaces := 1 }
  next := sharingNext

/-! ## Common queues -/

namespace SharingState

/-- The queue a `FUTEX_WAKE` of the task finds, with the process in whose
table it is. -/
def wakeQueue (state : SharingState) (waker : FutexTask) (addr : Nat) : Option (Nat × Nat) :=
  (state.processes[waker.process]?).bind fun process =>
    (process.calls.futexes.get addr).map fun found =>
      (waker.process, found.1)

def FutexesShared (state : SharingState) : Prop :=
  ∀ (waiting : Nat) (active : ActiveCall) (waker : FutexTask) (queue : Nat),
    state.activeCall waiting = some active →
    (active.call.phase = .holding queue ∨ active.call.phase = .asleep queue) →
    waker ∈ state.tasks → waker.life ≠ .gone →
    state.aspaceOf waker.process = some active.process.aspace →
      state.wakeQueue waker active.call.args.uaddr = some (active.task.process, queue)

def wakeupDone : FutexPhase → Bool
  | .entered => false
  | .notifying _ _ remaining _ => remaining == 0
  | _ => true

def ExitReaches (source : SharingState) (action : SharingAction) (target : SharingState) : Prop :=
  ∀ (caller : Nat) (before after : ActiveCall), action = .step caller →
    source.activeCall caller = some before →
    target.activeCall caller = some after →
    before.task.life = .exiting →
    before.call.args = exitArgs before.task.clearChildTid →
    wakeupDone before.call.phase = false →
    wakeupDone after.call.phase = true →
      ∀ process ∈ target.processes,
        process.aspace = before.process.aspace →
          process.calls.futexes.waitingOn before.task.clearChildTid = []

def Alone (state : SharingState) (process aspace : Nat) : Prop :=
  ∀ task ∈ state.tasks, task.life ≠ .gone →
    state.aspaceOf task.process = some aspace → task.process = process

instance (state : SharingState) (process aspace : Nat) : Decidable (state.Alone process aspace) :=
  inferInstanceAs (Decidable (∀ task ∈ state.tasks, _))

/-- What is asked of a step of a call: a wait gets its queue where the address
space belongs to its process alone, and at most one task waits where an
exiting task wakes one. -/
def StepAlone (state : SharingState) (active : ActiveCall) : Prop :=
  (active.call.phase = .compared →
    active.call.args.command = futexWait → state.Alone active.task.process active.process.aspace) ∧
    (active.task.life = .exiting →
      wakeupDone active.call.phase = false →
        (active.process.calls.futexes.waitingOn active.call.args.uaddr).length ≤ 1)

instance (state : SharingState) (active : ActiveCall) : Decidable (state.StepAlone active) :=
  inferInstanceAs (Decidable (_ ∧ _))

def CloneAlone (state : SharingState) (process : FutexProcess) (flags : BitVec 32) : Prop :=
  (cloneFlags flags).contains CloneFlags.vm = true →
    (cloneFlags flags).contains CloneFlags.thread = false →
      ∀ other ∈ state.processes, other.aspace = process.aspace → ¬ other.calls.Waiting

instance (state : SharingState) (process : FutexProcess)
    (flags : BitVec 32) : Decidable (state.CloneAlone process flags) :=
  inferInstanceAs (Decidable (_ → _ → _))

def WaitsAlone (state : SharingState) : SharingAction → Prop
  | .clone caller flags _ _ =>
      ∀ found ∈ state.inUserMode caller .running, state.CloneAlone found.2 flags
  | .step caller =>
      ∀ active ∈ state.activeCall caller, state.StepAlone active
  | _ => True

instance (state : SharingState) : (action : SharingAction) → Decidable (state.WaitsAlone action)
  | .clone caller flags _ _ =>
      inferInstanceAs
        (Decidable (∀ found ∈ state.inUserMode caller .running, state.CloneAlone found.2 flags))
  | .step caller =>
      inferInstanceAs (Decidable (∀ active ∈ state.activeCall caller, state.StepAlone active))
  | .setTidAddress _ _ => isTrue trivial
  | .store _ _ _ => isTrue trivial
  | .sysFutex _ _ => isTrue trivial
  | .expire _ => isTrue trivial
  | .exit _ _ => isTrue trivial
  | .gone _ => isTrue trivial

end SharingState

/-! ## How calls come to wait -/

namespace FutexTable

def Occupied (futexes : FutexTable) : Prop := ∃ queue, futexes.tasksOf queue ≠ []

theorem occupied_of_tasks_eq {before after : FutexTable}
    (same : ∀ queue, after.tasksOf queue = before.tasksOf queue)
    (occupied : after.Occupied) : before.Occupied := by
  obtain ⟨queue, nonempty⟩ := occupied
  rw [same] at nonempty
  exact ⟨queue, nonempty⟩

theorem tasksOf_dropBody (futexes : FutexTable) (key queue asked : Nat) :
    (futexes.dropBody key queue).tasksOf asked = futexes.tasksOf asked := by
  unfold dropBody
  split
  · split
    · rfl
    · rw [tasksOf_setStrong]
      rfl
  · rfl

theorem occupied_of_setTasks {futexes : FutexTable} {queue : Nat} {change : List Nat → List Nat}
    (keepsEmpty : change (futexes.tasksOf queue) ≠ [] → futexes.Occupied)
    (occupied : (futexes.setTasks queue change).Occupied) :
    futexes.Occupied := by
  obtain ⟨asked, nonempty⟩ := occupied
  by_cases same : queue = asked
  · subst same
    obtain ⟨task, sleeps⟩ := List.exists_mem_of_ne_nil _ nonempty
    have bounded := lt_length_of_mem_tasksOf sleeps
    rw [length_setTasks] at bounded
    rw [tasksOf_setTasks_self _ _ bounded] at nonempty
    exact keepsEmpty nonempty
  · rw [tasksOf_setTasks_of_ne _ _ same] at nonempty
    exact ⟨asked, nonempty⟩

theorem occupied_of_remove {futexes : FutexTable} {queue task : Nat}
    (occupied : (futexes.remove queue task).Occupied) :
    futexes.Occupied := by
  refine occupied_of_setTasks ?_ occupied
  intro nonempty
  refine ⟨queue, ?_⟩
  intro empty
  rw [empty] at nonempty
  exact nonempty rfl

theorem occupied_of_notifyOne {futexes after : FutexTable} {queue task : Nat}
    (woken : futexes.notifyOne queue = some (task, after)) :
    futexes.Occupied := by
  obtain ⟨tasks, -⟩ := notifyOne_eq_some woken
  refine ⟨queue, ?_⟩
  rw [tasks]
  exact List.cons_ne_nil _ _

theorem occupied_of_requeue {futexes : FutexTable} {count source target : Nat}
    (occupied : (futexes.requeue count source target).2.Occupied) :
    futexes.Occupied := by
  by_cases empty : futexes.tasksOf source = []
  · have emptied : (futexes.setTasks source (List.drop count)).Occupied := by
      refine occupied_of_setTasks ?_ occupied
      intro nonempty
      refine ⟨target, ?_⟩
      simpa [empty] using nonempty
    refine occupied_of_setTasks ?_ emptied
    intro nonempty
    rw [empty, List.drop_nil] at nonempty
    exact absurd rfl nonempty
  · exact ⟨source, empty⟩

end FutexTable

theorem SysFutexState.waiting_iff {state : SysFutexState} :
    state.Waiting ↔
      (∃ call ∈ state.calls, call.phase.waits = true) ∨
        state.futexes.Occupied := by
  constructor
  · rintro (waits | ⟨queue, -, nonempty⟩)
    · exact Or.inl waits
    · exact Or.inr ⟨queue, nonempty⟩
  · rintro (waits | ⟨queue, nonempty⟩)
    · exact Or.inl waits
    · obtain ⟨task, sleeps⟩ := List.exists_mem_of_ne_nil _ nonempty
      have bounded := FutexTable.lt_length_of_mem_tasksOf sleeps
      exact Or.inr ⟨queue, List.mem_range.mpr bounded, nonempty⟩

section Effects

variable {futexes : FutexTable} {task : Nat} {args : FutexArgs}
  {phase : FutexPhase} {effect : FutexEffect}

theorem waits_of_futexMove (moved : FutexMove futexes task args phase effect)
    (waits : effect.phase.waits = true) :
    phase.waits = true ∨ (phase = .compared ∧ args.command = futexWait) := by
  cases moved with
  | inserts isWait => exact Or.inr ⟨rfl, isWait⟩
  | rejectsTimeout wq error => exact Or.inl rfl
  | sleeps wq => exact Or.inl rfl
  | _ => cases waits

theorem occupied_of_futexMove (moved : FutexMove futexes task args phase effect)
    (occupied : effect.futexes.Occupied) :
    phase.waits = true ∨ futexes.Occupied := by
  have sameTasks {after : FutexTable} (same : ∀ queue, after.tasksOf queue = futexes.tasksOf queue)
      (laterOccupied : after.Occupied) :
      phase.waits = true ∨ futexes.Occupied :=
    Or.inr (FutexTable.occupied_of_tasks_eq same laterOccupied)
  cases moved with
  | rejectsTimeout wq error => exact Or.inl rfl
  | sleeps wq => exact Or.inl rfl
  | getsWoken isGot =>
      exact sameTasks (FutexTable.tasksOf_get isGot) occupied
  | getsRequeued isGot =>
      exact sameTasks (FutexTable.tasksOf_get isGot) occupied
  | inserts isWait =>
      exact sameTasks (futexes.tasksOf_getOrInsert args.uaddr) occupied
  | insertsUnused =>
      exact sameTasks (futexes.tasksOf_getOrInsert args.uaddr2) occupied
  | insertsTarget wq =>
      exact sameTasks (futexes.tasksOf_getOrInsert args.uaddr2) occupied
  | notifies wq2 remaining count isWoken =>
      exact Or.inr (FutexTable.occupied_of_notifyOne isWoken)
  | requeues wq wq2 count =>
      exact Or.inr (FutexTable.occupied_of_requeue occupied)
  | dropsInner rest result isDropped =>
      exact sameTasks (fun queue => futexes.tasksOf_setStrong _ queue _) occupied
  | dropsBody rest result isDropped =>
      exact sameTasks (futexes.tasksOf_dropBody _ _) occupied
  | _ => exact Or.inr occupied

end Effects

namespace SysFutexState

theorem waits_of_wake {state : SysFutexState} {woken : Option Nat} {call : FutexCall}
    (member : call ∈ (state.wake woken).calls)
    (waits : call.phase.waits = true) : call ∈ state.calls := by
  cases woken with
  | none => exact member
  | some task =>
      rcases Roster.mem_or_changed member with old | ⟨before, old, rfl⟩
      · exact old
      · obtain ⟨args, phase⟩ := before
        cases phase with
        | holding wq => exact old
        | _ => cases waits

theorem waits_of_apply {state : SysFutexState} {index : Nat} {effect : FutexEffect}
    {call : FutexCall} (member : call ∈ (state.apply index effect).calls)
    (waits : call.phase.waits = true) :
    call ∈ state.calls ∨ effect.phase.waits = true := by
  rcases Roster.mem_or_changed member with old | ⟨before, -, rfl⟩
  · have unwoken := waits_of_wake old waits
    exact Or.inl unwoken
  · exact Or.inr waits

theorem futexes_wake (state : SysFutexState) (woken : Option Nat) :
    (state.wake woken).futexes = state.futexes := by
  cases woken <;> rfl

theorem waiting_of_step {state after : SysFutexState} {index : Nat} {call : FutexCall}
    (found : state.calls[index]? = some call)
    (stepped : sysFutexNext state (.step index) = some after)
    (waiting : after.Waiting) :
    state.Waiting ∨ (call.phase = .compared ∧ call.args.command = futexWait) := by
  simp only [sysFutexNext, found, Option.bind_some] at stepped
  obtain ⟨effect, effects, rfl⟩ := Option.map_eq_some_iff.mp stepped
  have moved := FutexMove.of_futexStep effects
  have ofCall (waits : call.phase.waits = true) : state.Waiting :=
    Or.inl ⟨call, List.mem_of_getElem? found, waits⟩
  rcases waiting_iff.mp waiting with ⟨other, member, waits⟩ | occupied
  · rcases waits_of_apply member waits with old | waitsNow
    · exact Or.inl (Or.inl ⟨other, old, waits⟩)
    · rcases waits_of_futexMove moved waitsNow with before | getsQueue
      · exact Or.inl (ofCall before)
      · exact Or.inr getsQueue
  · have effectOccupied : effect.futexes.Occupied := by
      rw [apply, setPhase, futexes_wake] at occupied
      exact occupied
    rcases occupied_of_futexMove moved effectOccupied with before | old
    · exact Or.inl (ofCall before)
    · exact Or.inl (waiting_iff.mpr (Or.inr old))

theorem waiting_of_expire {state after : SysFutexState} {index : Nat}
    (stepped : sysFutexNext state (.expire index) = some after)
    (waiting : after.Waiting) : state.Waiting := by
  obtain ⟨call, found, expired⟩ := Option.bind_eq_some_iff.mp stepped
  unfold expire at expired
  split at expired
  · obtain ⟨queue, -, rfl⟩ := Option.map_eq_some_iff.mp expired
    rcases waiting_iff.mp waiting with ⟨other, member, waits⟩ | occupied
    · have unwoken := waits_of_wake member waits
      exact Or.inl ⟨other, unwoken, waits⟩
    · rw [futexes_wake] at occupied
      exact waiting_iff.mpr (Or.inr (FutexTable.occupied_of_remove occupied))
  · cases expired

theorem waiting_of_sysFutex {state after : SysFutexState} {args : FutexArgs}
    (stepped : sysFutexNext state (.sysFutex args) = some after)
    (waiting : after.Waiting) : state.Waiting := by
  cases stepped
  rcases waiting with ⟨call, member, waits⟩ | occupied
  · rcases List.mem_append.mp member with old | fresh
    · exact Or.inl ⟨call, old, waits⟩
    · obtain rfl := List.mem_singleton.mp fresh
      cases waits
  · exact Or.inr occupied

end SysFutexState

/-! ## Waits stay alone -/

/-- Every process runs the calls of `sysFutexMachine` from the start, and one
in which somebody waits is alone in its address space. -/
structure SharingInvariant (state : SharingState) : Prop where
  calls : ∀ process ∈ state.processes, sysFutexMachine.Reachable process.calls
  fresh : ∀ process ∈ state.processes, process.aspace < state.aspaces
  known : ∀ task ∈ state.tasks, task.process < state.processes.length
  alone :
    ∀ (index : Nat) (process : FutexProcess),
      state.processes[index]? = some process → process.calls.Waiting →
        state.Alone index process.aspace

namespace SharingInvariant

open SharingState

theorem of_same {source target : SharingState} (holds : SharingInvariant source)
    (sameLength : target.processes.length = source.processes.length)
    (sameFresh : target.aspaces = source.aspaces)
    (tasks :
      ∀ task ∈ target.tasks, ∃ before ∈ source.tasks,
        before.process = task.process ∧ (task.life ≠ .gone → before.life ≠ .gone))
    (processes :
      ∀ (index : Nat) (after : FutexProcess),
        target.processes[index]? = some after →
          ∃ before, source.processes[index]? = some before ∧ after.aspace = before.aspace ∧
            sysFutexMachine.Reachable after.calls ∧
            (after.calls.Waiting → before.calls.Waiting ∨ source.Alone index before.aspace)) :
    SharingInvariant target := by
  have mem_processes : ∀ after ∈ target.processes, ∃ index, target.processes[index]? = some after :=
    fun after member => List.mem_iff_getElem?.mp member
  refine ⟨?_, ?_, ?_, ?_⟩
  · intro after member
    obtain ⟨index, found⟩ := mem_processes after member
    obtain ⟨before, -, -, reached, -⟩ := processes index after found
    exact reached
  · intro after member
    obtain ⟨index, found⟩ := mem_processes after member
    obtain ⟨before, beforeFound, sameAspace, -, -⟩ := processes index after found
    rw [sameFresh, sameAspace]
    exact holds.fresh before (List.mem_of_getElem? beforeFound)
  · intro task member
    obtain ⟨before, beforeMember, sameProcess, -⟩ := tasks task member
    rw [sameLength, ← sameProcess]
    exact holds.known before beforeMember
  · intro index after found waiting task member lives sameSpace
    obtain ⟨before, beforeFound, sameAspace, -, waited⟩ := processes index after found
    obtain ⟨old, oldMember, sameProcess, livedBefore⟩ := tasks task member
    have alone : source.Alone index before.aspace := by
      rcases waited waiting with waitedBefore | aloneBefore
      · exact holds.alone index before beforeFound waitedBefore
      · exact aloneBefore
    rw [← sameProcess]
    apply alone old oldMember (livedBefore lives)
    obtain ⟨owner, ownerFound, ownerSpace⟩ := Option.map_eq_some_iff.mp sameSpace
    obtain ⟨ownerBefore, ownerBeforeFound, ownerSame, -, -⟩ :=
      processes task.process owner ownerFound
    rw [aspaceOf, sameProcess, ownerBeforeFound, Option.map_some,
      ← ownerSame, ownerSpace, sameAspace]

theorem same_tasks {state : SharingState} :
    ∀ task ∈ state.tasks, ∃ before ∈ state.tasks,
      before.process = task.process ∧ (task.life ≠ .gone → before.life ≠ .gone) :=
  fun task member => ⟨task, member, rfl, id⟩

theorem setCalls {state : SharingState} (holds : SharingInvariant state)
    {index : Nat} {process : FutexProcess} {calls : SysFutexState}
    (found : state.processes[index]? = some process)
    (reached : sysFutexMachine.Reachable calls)
    (waited : calls.Waiting → process.calls.Waiting ∨ state.Alone index process.aspace) :
    SharingInvariant (state.setCalls index calls) := by
  refine holds.of_same ?_ rfl same_tasks ?_
  · exact List.length_modify _ _ _
  · intro asked after afterFound
    rcases Roster.changed_or_same found afterFound with ⟨rfl, rfl⟩ | ⟨-, before⟩
    · exact ⟨process, found, rfl, reached, waited⟩
    · exact ⟨after, before, rfl, holds.calls after (List.mem_of_getElem? before), Or.inl⟩

theorem setTask {state : SharingState} (holds : SharingInvariant state)
    {caller : Nat} {before after : FutexTask}
    (found : state.tasks[caller]? = some before)
    (sameProcess : after.process = before.process)
    (lives : before.life ≠ .gone) :
    SharingInvariant (state.setTask caller after) := by
  refine holds.of_same rfl rfl ?_ ?_
  · apply Roster.forall_mem_set same_tasks
    exact ⟨before, List.mem_of_getElem? found, sameProcess.symm, fun _ => lives⟩
  · intro index process processFound
    exact
      ⟨process, processFound, rfl, holds.calls process (List.mem_of_getElem? processFound), Or.inl⟩

theorem storeWord {state : SharingState} (holds : SharingInvariant state)
    (aspace addr : Nat) (value : BitVec 32) :
    SharingInvariant (state.storeWord aspace addr value) := by
  refine holds.of_same (List.length_map _) rfl same_tasks ?_
  intro index after afterFound
  rw [SharingState.storeWord, List.getElem?_map] at afterFound
  obtain ⟨before, beforeFound, rfl⟩ := Option.map_eq_some_iff.mp afterFound
  have reached := holds.calls before (List.mem_of_getElem? beforeFound)
  refine ⟨before, beforeFound, ?_⟩
  split
  · refine ⟨rfl, ?_, Or.inl⟩
    exact reached.step (.store addr value) rfl
  · exact ⟨rfl, reached, Or.inl⟩

theorem startCall {state : SharingState} (holds : SharingInvariant state)
    {caller : Nat} {before after : FutexTask} {args : FutexArgs}
    (found : state.tasks[caller]? = some before)
    (sameProcess : after.process = before.process)
    (lives : before.life ≠ .gone) :
    SharingInvariant (state.startCall caller after args) := by
  unfold SharingState.startCall
  split
  · exact holds
  · next process processFound =>
      have reached := holds.calls process (List.mem_of_getElem? processFound)
      have entered :
          sysFutexNext process.calls (.sysFutex args) =
            some
              { process.calls with
                calls := process.calls.calls ++ [⟨args, .entered⟩] } :=
        rfl
      have called :=
        holds.setCalls processFound (reached.step (.sysFutex args) entered) fun waiting =>
            Or.inl (SysFutexState.waiting_of_sysFutex entered waiting)
      exact called.setTask found sameProcess lives

theorem addProcess {state : SharingState} (holds : SharingInvariant state)
    {aspace aspaces clearChildTid : Nat} {word : Nat → BitVec 32}
    (grows : state.aspaces ≤ aspaces) (isFresh : aspace < aspaces)
    (nobodyWaits : ∀ process ∈ state.processes, process.aspace = aspace → ¬ process.calls.Waiting) :
    SharingInvariant
      { processes := state.processes ++ [⟨aspace, ⟨word, .new, [], []⟩⟩]
        tasks := state.tasks ++ [⟨state.processes.length, clearChildTid, none, .running⟩]
        aspaces := aspaces } := by
  refine ⟨?_, ?_, ?_, ?_⟩
  · apply Roster.forall_mem_concat holds.calls
    exact Machine.Reachable.start ⟨rfl, rfl, rfl⟩
  · have oldFresh : ∀ process ∈ state.processes, process.aspace < aspaces := by
      intro process old
      exact Nat.lt_of_lt_of_le (holds.fresh process old) grows
    exact Roster.forall_mem_concat oldFresh isFresh
  · rw [List.length_append, List.length_singleton]
    have oldKnown :
        ∀ task ∈ state.tasks,
          task.process < state.processes.length + 1 := by
      intro task old
      exact Nat.lt_succ_of_lt (holds.known task old)
    exact Roster.forall_mem_concat oldKnown (Nat.lt_succ_self _)
  · intro index process found waiting task member lives sameSpace
    rcases Roster.old_or_added found with before | ⟨-, rfl⟩
    · rcases List.mem_append.mp member with old | new
      · have alone := holds.alone index process before waiting
        apply alone task old lives
        rw [aspaceOf, List.getElem?_append_left (holds.known task old)] at sameSpace
        exact sameSpace
      · obtain rfl := List.mem_singleton.mp new
        have spaceEq : process.aspace = aspace := by
          simpa [aspaceOf, eq_comm] using sameSpace
        refine absurd waiting ?_
        exact nobodyWaits process (List.mem_of_getElem? before) spaceEq
    · rcases waiting with ⟨call, isCall, -⟩ | ⟨queue, isQueue, -⟩
      · cases isCall
      · cases isQueue

theorem sysClone {state : SharingState} (holds : SharingInvariant state)
    {caller : Nat} {task : FutexTask} {process : FutexProcess}
    {flags : BitVec 32} {childTid : Nat} {env : CloneEnv}
    (found : state.tasks[caller]? = some task)
    (lives : task.life ≠ .gone)
    (processFound : state.processes[task.process]? = some process)
    (apart : state.CloneAlone process flags) :
    SharingInvariant (state.sysClone task process flags childTid env) := by
  have isProcess := List.mem_of_getElem? processFound
  unfold SharingState.sysClone
  cases plan : planClone flags env with
  | error error => exact holds
  | ok made =>
      cases made with
      | thread =>
          refine holds.of_same rfl rfl ?_ ?_
          · apply Roster.forall_mem_concat same_tasks
            exact ⟨task, List.mem_of_getElem? found, rfl, fun _ => lives⟩
          · intro index after afterFound
            have reached := holds.calls after (List.mem_of_getElem? afterFound)
            exact ⟨after, afterFound, rfl, reached, Or.inl⟩
      | process sharesFiles =>
          have notThread : (cloneFlags flags).contains CloneFlags.thread = false := by
            have decided := planClone_eq_ok plan
            split at decided
            · cases decided
            · next notThread => exact Bool.eq_false_of_not_eq_true notThread
          have callerFresh := holds.fresh process isProcess
          cases shares : (cloneFlags flags).contains CloneFlags.vm with
          | true =>
              refine holds.addProcess (Nat.le_refl _) callerFresh ?_
              exact apart shares notThread
          | false =>
              refine holds.addProcess (Nat.le_succ _) (Nat.lt_succ_self _) ?_
              intro other member sameSpace
              have otherFresh := holds.fresh other member
              simp only [Bool.false_eq_true, if_false] at sameSpace
              omega

end SharingInvariant

namespace SharingState

theorem inUserMode_eq_some {state : SharingState} {caller : Nat} {life : TaskLife}
    {found : FutexTask × FutexProcess}
    (isFound : state.inUserMode caller life = some found) :
    state.tasks[caller]? = some found.1 ∧ state.processes[found.1.process]? = some found.2 ∧
      found.1.life = life := by
  obtain ⟨task, taskFound, rest⟩ := Option.bind_eq_some_iff.mp isFound
  obtain ⟨process, processFound, rest⟩ := Option.bind_eq_some_iff.mp rest
  obtain ⟨⟨isLife, -⟩, isPair⟩ := Option.ite_none_right_eq_some.mp rest
  obtain rfl := Option.some.inj isPair
  exact ⟨taskFound, processFound, isLife⟩

theorem activeCall_eq_some {state : SharingState} {caller : Nat} {active : ActiveCall} :
    state.activeCall caller = some active ↔
      state.tasks[caller]? = some active.task ∧
        state.processes[active.task.process]? = some active.process ∧
        active.task.call = some active.number ∧
        active.process.calls.calls[active.number]? = some active.call := by
  unfold activeCall
  constructor
  · intro isActive
    obtain ⟨task, taskFound, rest⟩ := Option.bind_eq_some_iff.mp isActive
    obtain ⟨process, processFound, rest⟩ := Option.bind_eq_some_iff.mp rest
    obtain ⟨number, isNumber, rest⟩ := Option.bind_eq_some_iff.mp rest
    obtain ⟨call, isCall, rfl⟩ := Option.map_eq_some_iff.mp rest
    exact ⟨taskFound, processFound, isNumber, isCall⟩
  · rintro ⟨taskFound, processFound, isNumber, isCall⟩
    simp [taskFound, processFound, isNumber, isCall]

end SharingState

theorem SharingInvariant.step {source target : SharingState} {action : SharingAction}
    (holds : SharingInvariant source)
    (apart : source.WaitsAlone action)
    (stepped : sharingNext source action = some target) :
    SharingInvariant target := by
  have notGone : ∀ life : TaskLife, life = .running → life ≠ .gone := by
    rintro life rfl
    exact nofun
  cases action with
  | clone caller flags childTid env =>
      obtain ⟨found, isFound, rfl⟩ := Option.map_eq_some_iff.mp stepped
      obtain ⟨taskFound, processFound, isRunning⟩ := SharingState.inUserMode_eq_some isFound
      exact holds.sysClone taskFound (notGone _ isRunning) processFound (apart found isFound)
  | setTidAddress caller addr =>
      obtain ⟨found, isFound, rfl⟩ := Option.map_eq_some_iff.mp stepped
      obtain ⟨taskFound, -, isRunning⟩ := SharingState.inUserMode_eq_some isFound
      exact holds.setTask taskFound rfl (notGone _ isRunning)
  | store caller addr value =>
      obtain ⟨found, -, rfl⟩ := Option.map_eq_some_iff.mp stepped
      exact holds.storeWord _ addr value
  | sysFutex caller args =>
      obtain ⟨found, isFound, rfl⟩ := Option.map_eq_some_iff.mp stepped
      obtain ⟨taskFound, -, isRunning⟩ := SharingState.inUserMode_eq_some isFound
      exact holds.startCall taskFound rfl (notGone _ isRunning)
  | step caller =>
      obtain ⟨active, isActive, moved⟩ := Option.bind_eq_some_iff.mp stepped
      obtain ⟨calls, called, rfl⟩ := Option.map_eq_some_iff.mp moved
      obtain ⟨-, processFound, -, callFound⟩ := SharingState.activeCall_eq_some.mp isActive
      have reached := holds.calls active.process (List.mem_of_getElem? processFound)
      refine holds.setCalls processFound (reached.step (.step active.number) called) ?_
      intro waiting
      rcases SysFutexState.waiting_of_step callFound called waiting with
        before | ⟨isCompared, isWait⟩
      · exact Or.inl before
      · exact Or.inr ((apart active isActive).1 isCompared isWait)
  | expire caller =>
      obtain ⟨active, isActive, moved⟩ := Option.bind_eq_some_iff.mp stepped
      obtain ⟨calls, called, rfl⟩ := Option.map_eq_some_iff.mp moved
      obtain ⟨-, processFound, -, -⟩ := SharingState.activeCall_eq_some.mp isActive
      have reached := holds.calls active.process (List.mem_of_getElem? processFound)
      refine holds.setCalls processFound (reached.step (.expire active.number) called) ?_
      intro waiting
      exact Or.inl (SysFutexState.waiting_of_expire called waiting)
  | exit caller access =>
      obtain ⟨found, isFound, rfl⟩ := Option.map_eq_some_iff.mp stepped
      obtain ⟨taskFound, -, isRunning⟩ := SharingState.inUserMode_eq_some isFound
      cases access with
      | error error => exact holds.setTask taskFound rfl (notGone _ isRunning)
      | ok done =>
          exact (holds.storeWord _ _ 0).startCall taskFound rfl (notGone _ isRunning)
  | gone caller =>
      obtain ⟨found, isFound, rfl⟩ := Option.map_eq_some_iff.mp stepped
      obtain ⟨taskFound, -, isExiting⟩ := SharingState.inUserMode_eq_some isFound
      refine holds.setTask taskFound rfl ?_
      rw [isExiting]
      exact nofun

theorem SharingInvariant.of_reachable {state : SharingState}
    (reached : sharingMachine.ReachableWithin SharingState.WaitsAlone state) :
    SharingInvariant state := by
  refine Machine.ReachableWithin.invariant ?_ ?_ reached
  · rintro start ⟨word, rfl⟩
    refine ⟨?_, ?_, ?_, ?_⟩
    · intro process member
      obtain rfl := List.mem_singleton.mp member
      exact Machine.Reachable.start ⟨rfl, rfl, rfl⟩
    · intro process member
      obtain rfl := List.mem_singleton.mp member
      exact Nat.one_pos
    · intro task member
      obtain rfl := List.mem_singleton.mp member
      exact Nat.one_pos
    · intro index process found waiting task member lives sameSpace
      obtain rfl := List.mem_singleton.mp member
      obtain ⟨bounded, -⟩ := List.getElem?_eq_some_iff.mp found
      exact (Nat.lt_one_iff.mp bounded).symm
  · intro source action target _ holds apart stepped
    exact holds.step apart stepped

/-! ## Wakes find the waits -/

theorem SysFutexState.table_of_guard
    {state : SysFutexState} (reached : sysFutexMachine.Reachable state)
    {index : Nat} {call : FutexCall} {guard : WaitQueueGuard}
    (found : state.calls[index]? = some call)
    (isGuard : guard ∈ call.phase.guards call.args) :
    state.futexes.table guard.key = some guard.inner := by
  have guarded := (SysFutexInvariant.of_reachable reached).guarded
  have holds := GuardInvariant.of_reachable guarded
  apply holds.stored guard
  exact Multiset.mem_coe.mpr (List.mem_flatMap.mpr ⟨call, List.mem_of_getElem? found, isGuard⟩)

theorem SharingInvariant.futexesShared {state : SharingState} (holds : SharingInvariant state) :
    state.FutexesShared := by
  intro waiting active waker queue isActive hasQueue isTask lives sameSpace
  obtain ⟨-, processFound, -, callFound⟩ := SharingState.activeCall_eq_some.mp isActive
  have reached := holds.calls active.process (List.mem_of_getElem? processFound)
  have waits : active.call.phase.waits = true := by
    rcases hasQueue with isHolding | isAsleep
    · rw [isHolding]
      rfl
    · rw [isAsleep]
      rfl
  have isGuard :
      ⟨active.call.args.uaddr, queue, false⟩ ∈
        active.call.phase.guards active.call.args := by
    rcases hasQueue with isHolding | isAsleep
    · rw [isHolding]
      exact List.mem_singleton_self _
    · rw [isAsleep]
      exact List.mem_singleton_self _
  have stored := SysFutexState.table_of_guard reached callFound isGuard
  have alone := holds.alone active.task.process active.process processFound
      (Or.inl ⟨active.call, List.mem_of_getElem? callFound, waits⟩)
  have sameProcess := alone waker isTask lives sameSpace
  simp only [SharingState.wakeQueue, sameProcess, processFound,
    Option.bind_some, FutexTable.get, stored, Option.map_some]

theorem SysFutexState.waitingOn_of_wakeup {state after : SysFutexState}
    (reached : sysFutexMachine.Reachable state)
    {index addr : Nat} {call later : FutexCall}
    (found : state.calls[index]? = some call)
    (stepped : sysFutexNext state (.step index) = some after)
    (laterFound : after.calls[index]? = some later)
    (isExit : call.args = exitArgs addr)
    (notDone : SharingState.wakeupDone call.phase = false)
    (done : SharingState.wakeupDone later.phase = true)
    (few : (state.futexes.waitingOn addr).length ≤ 1) :
    after.futexes.waitingOn addr = [] := by
  have stored (guard : WaitQueueGuard) := @table_of_guard state reached index call guard found
  simp only [sysFutexNext, found, Option.bind_some] at stepped
  obtain ⟨effect, effects, rfl⟩ := Option.map_eq_some_iff.mp stepped
  have laterPhase : later.phase = effect.phase := by
    rw [apply, setPhase, List.getElem?_modify_eq] at laterFound
    obtain ⟨before, -, rfl⟩ := Option.map_eq_some_iff.mp laterFound
    rfl
  have sameFutexes : (state.apply index effect).futexes = effect.futexes := by
    rw [apply, setPhase, futexes_wake]
  rw [laterPhase] at done
  rw [sameFutexes]
  have moved := FutexMove.of_futexStep effects
  obtain ⟨args, phase⟩ := call
  obtain rfl : args = exitArgs addr := isExit
  have isWake : (exitArgs addr).command = futexWake := by
    change futexWake &&& futexCmdMask = futexWake
    decide
  cases moved with
  | compares notWake => exact absurd isWake notWake
  | refuses result noQueue =>
      have missing : state.futexes.table addr = none := Option.map_eq_none_iff.mp (noQueue isWake)
      simp only [FutexEffect.goto, FutexTable.waitingOn, missing]
  | stops wq wq2 remaining count noneLeft =>
      have inTable : state.futexes.table addr = some wq := by
        apply stored ⟨addr, wq, false⟩
        cases wq2 <;> exact List.mem_cons_self
      cases remaining with
      | zero => cases notDone
      | succ remaining =>
          have empty := FutexTable.notifyOne_eq_none.mp (noneLeft (Nat.succ_ne_zero remaining))
          simp only [FutexEffect.goto, FutexTable.waitingOn, inTable, empty]
  | @notifies wq woken after wq2 remaining count isWoken =>
      have inTable : state.futexes.table addr = some wq := by
        apply stored ⟨addr, wq, false⟩
        cases wq2 <;> exact List.mem_cons_self
      obtain ⟨tasks, -⟩ := FutexTable.notifyOne_eq_some isWoken
      have sameTable := FutexTable.table_notifyOne isWoken
      simp only [FutexTable.waitingOn, inTable] at few
      rw [tasks, List.length_cons] at few
      have empty : (after.tasksOf wq).length = 0 := by omega
      simp only [FutexTable.waitingOn, sameTable, inTable]
      exact List.length_eq_zero_iff.mp empty
  | getsWoken isGot => cases done
  | _ => cases notDone

theorem SharingInvariant.exitReaches {source target : SharingState} {action : SharingAction}
    (holds : SharingInvariant source)
    (apart : source.WaitsAlone action)
    (stepped : sharingNext source action = some target) :
    source.ExitReaches action target := by
  have after := holds.step apart stepped
  rintro caller before later rfl isBefore isLater isExiting isExit notDone
    done process isProcess sameSpace
  obtain ⟨active, isActive, moved⟩ := Option.bind_eq_some_iff.mp stepped
  obtain rfl := Option.some.inj (isBefore.symm.trans isActive)
  obtain ⟨calls, called, rfl⟩ := Option.map_eq_some_iff.mp moved
  obtain ⟨taskFound, processFound, hasCall, callFound⟩ :=
    SharingState.activeCall_eq_some.mp isBefore
  have targetFound :
      (source.setCalls before.task.process calls).processes[before.task.process]? =
        some { before.process with calls := calls } := by
    rw [SharingState.setCalls, List.getElem?_modify_eq, processFound]
    rfl
  obtain ⟨laterTask, laterProcess, laterCall, laterFound⟩ :=
    SharingState.activeCall_eq_some.mp isLater
  obtain sameTask : before.task = later.task := Option.some.inj (taskFound.symm.trans laterTask)
  rw [← sameTask, targetFound] at laterProcess
  rw [← sameTask, hasCall] at laterCall
  rw [← Option.some.inj laterProcess, ← Option.some.inj laterCall] at laterFound
  have reached := holds.calls before.process (List.mem_of_getElem? processFound)
  have few := (apart before isBefore).2 isExiting notDone
  rw [isExit] at few
  have emptied :=
    SysFutexState.waitingOn_of_wakeup reached callFound called laterFound isExit notDone done few
  by_contra nonempty
  obtain ⟨index, found⟩ := List.mem_iff_getElem?.mp isProcess
  have occupied : process.calls.futexes.Occupied := by
    unfold FutexTable.waitingOn at nonempty
    split at nonempty
    · next queue _ => exact ⟨queue, nonempty⟩
    · exact absurd rfl nonempty
  have alone := after.alone index process found (SysFutexState.waiting_iff.mpr (Or.inr occupied))
  have isTask : before.task ∈ source.tasks := List.mem_of_getElem? taskFound
  have lives : before.task.life ≠ .gone := by
    rw [isExiting]
    exact nofun
  have sameProcess : before.task.process = index := by
    apply alone before.task isTask lives
    rw [SharingState.aspaceOf, targetFound, sameSpace]
    rfl
  rw [← sameProcess, targetFound] at found
  rw [← Option.some.inj found] at nonempty
  exact nonempty emptied

/-- In every run in which waits start where the address space belongs to one
process, no other process joins it while somebody waits, and at most one task
waits where an exiting task wakes one, tasks that share an address space use
common queues and the wakeup of an exiting task reaches all who wait. -/
theorem futexes_shared_of_waits_alone {state : SharingState}
    (reached : sharingMachine.ReachableWithin SharingState.WaitsAlone state) :
    state.FutexesShared ∧
      ∀ action target, state.WaitsAlone action →
        sharingMachine.next state action = some target →
          state.ExitReaches action target := by
  have holds := SharingInvariant.of_reachable reached
  refine ⟨holds.futexesShared, ?_⟩
  intro action target apart stepped
  exact holds.exitReaches apart stepped

def loneTask : SharingState where
  processes := [⟨0, ⟨fun _ => 0, .new, [], []⟩⟩]
  tasks := [⟨0, 0, none, .running⟩]
  aspaces := 1

/-- `CLONE_VM | CLONE_SIGHAND | CLONE_THREAD`. -/
def threadFlags : BitVec 32 := CloneFlags.vm ||| CloneFlags.sighand ||| CloneFlags.thread

def sleepOn64 (caller : Nat) : List SharingAction :=
  [.sysFutex caller (plainArgs futexWait 0), .step caller, .step caller, .step caller]

/-- A thread sleeps on a futex, and the main task finds its queue. -/
theorem futexes_shared_of_waits_alone_thread :
    ∃ state, sharingMachine.ReachableWithin SharingState.WaitsAlone state ∧
      (state.processes.map fun process =>
        process.calls.futexes.waitingOn 64) = [[0]] ∧
      state.FutexesShared := by
  obtain ⟨state, reached, observed⟩ :=
    @Machine.exists_reachableWithin_of_exec _ _ sharingMachine SharingState.WaitsAlone loneTask
      (.clone 0 threadFlags 0 ⟨.ok (), .ok (), true, .ok ()⟩ :: sleepOn64 1)
      (fun state => decide ((state.processes.map fun process =>
          process.calls.futexes.waitingOn 64) = [[0]]))
      ⟨fun _ => 0, rfl⟩ (Machine.meets_of_checkMeets (by decide +kernel))
      (by decide +kernel)
  exact ⟨state, reached, of_decide_eq_true observed, (futexes_shared_of_waits_alone reached).1⟩

/-- A child made by `CLONE_VM` without `CLONE_THREAD` sleeps on a futex of the
shared memory, and its parent finds no queue; and where two threads sleep on
an address, a third one that exits wakes only the first of them. -/
theorem futexes_split_by_clone_vm :
    (∃ state, sharingMachine.Reachable state ∧ ¬ state.FutexesShared) ∧
      ∃ source action target, sharingMachine.Reachable source ∧
        sharingMachine.next source action = some target ∧
        ¬ source.ExitReaches action target := by
  constructor
  · let parent : FutexTask := ⟨0, 0, none, .running⟩
    obtain ⟨state, reached, observed⟩ :=
      @Machine.exists_reachable_of_exec _ _ sharingMachine loneTask
        (.clone 0 (CloneFlags.vm ||| 17) 0 ⟨.ok (), .ok (), true, .ok ()⟩ :: sleepOn64 1)
        (fun state => decide
          ((∃ active ∈ state.activeCall 1,
              active.call.phase = .asleep 0 ∧ active.process.aspace = 0 ∧
                active.call.args.uaddr = 64) ∧
            parent ∈ state.tasks ∧ state.aspaceOf 0 = some 0 ∧
            state.wakeQueue parent 64 = none))
        ⟨fun _ => 0, rfl⟩ (by decide +kernel)
    obtain ⟨⟨active, isActive, isAsleep, sameSpace, isAddr⟩, isTask,
      parentSpace, noQueue⟩ := of_decide_eq_true observed
    refine ⟨state, reached, ?_⟩
    intro shared
    have found := shared 1 active parent 0 isActive (Or.inr isAsleep) isTask nofun
        (by rw [sameSpace, parentSpace])
    rw [isAddr, noQueue] at found
    cases found
  · obtain ⟨source, reached, observed⟩ :=
      @Machine.exists_reachable_of_exec _ _ sharingMachine loneTask
        ([.clone 0 threadFlags 0 ⟨.ok (), .ok (), true, .ok ()⟩,
            .clone 0 (threadFlags ||| CloneFlags.childCleartid) 64
              ⟨.ok (), .ok (), true, .ok ()⟩] ++
          sleepOn64 0 ++ sleepOn64 1 ++ [.exit 2 (.ok ()), .step 2])
        (fun source => decide
          (∃ before ∈ source.activeCall 2,
            ∃ target ∈ sharingMachine.next source (.step 2),
              ∃ after ∈ target.activeCall 2, before.task.life = .exiting ∧
                before.call.args = exitArgs before.task.clearChildTid ∧
                SharingState.wakeupDone before.call.phase = false ∧
                SharingState.wakeupDone after.call.phase = true ∧
                ∃ process ∈ target.processes, process.aspace = before.process.aspace ∧
                  process.calls.futexes.waitingOn before.task.clearChildTid ≠ []))
        ⟨fun _ => 0, rfl⟩ (by decide +kernel)
    obtain ⟨before, isBefore, target, stepped, after, isAfter, isExiting,
      isExit, notDone, done, process, isProcess, sameSpace, nonempty⟩ := of_decide_eq_true observed
    refine ⟨source, .step 2, target, reached, stepped, ?_⟩
    intro reaches
    exact nonempty
        (reaches 2 before after rfl isBefore isAfter isExiting isExit notDone
          done process isProcess sameSpace)

end Vegar.Task

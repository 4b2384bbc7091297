import Mathlib.Data.List.Basic
import Vegar.Lib.Machine

/-!
# Access to user memory on one CPU

`access_user_memory` of `core/src/mm.rs` and `handle_page_fault` of
`src/mm.rs`, by the tasks of one CPU.  `ACCESSING_USER_MEM` belongs to the
CPU, and no switch of tasks saves or restores it.
-/

namespace Vegar.Mm

open Vegar.Lib

/-! ## Page faults -/

/-- How `handle_page_fault` ends. -/
inductive FaultAnswer where
  | returned (handled : Bool)
  /-- `do_exit`. -/
  | exits
  deriving DecidableEq, Repr

/-- `handle_page_fault`; `resolved` is what the address space answers. -/
def handlePageFault (isUser accessing resolved : Bool) : FaultAnswer :=
  if !isUser && !accessing then .returned false
  else if !resolved then .exits
  else .returned true

/-! ## The tasks of a CPU -/

inductive AccessPhase where
  | running
  /-- In `handle_page_fault`, after its first check. -/
  | handling
  /-- In `do_exit`. -/
  | exiting
  | exited
  deriving DecidableEq, Repr

/-- A task, and whether it has entered `access_user_memory` and not left it. -/
structure AccessTask where
  inside : Bool
  phase : AccessPhase
  deriving DecidableEq, Repr

/-- `ACCESSING_USER_MEM`, the running task, and all tasks. -/
structure AccessState where
  accessing : Bool
  current : Nat
  tasks : List AccessTask
  deriving DecidableEq, Repr

inductive AccessAction where
  /-- `*v = true`. -/
  | enter
  /-- The closure has returned: `*v = false`. -/
  | leave
  | fault (isUser : Bool)
  /-- What the address space answers to a fault. -/
  | answer (resolved : Bool)
  /-- `sys_exit`. -/
  | exit
  /-- `axtask::exit`, with the task that runs next. -/
  | finish (next : Nat)
  | switch (next : Nat)
  /-- A new task. -/
  | spawn
  deriving DecidableEq, Repr

namespace AccessState

def task (state : AccessState) : Option AccessTask := state.tasks[state.current]?

def insideOf (state : AccessState) (index : Nat) : Bool :=
  (state.tasks[index]?).any AccessTask.inside

def setTask (state : AccessState) (task : AccessTask) : AccessState :=
  { state with tasks := state.tasks.set state.current task }

def run (state : AccessState) (next : Nat) : Option AccessState :=
  (state.tasks[next]?).bind fun task =>
    if task.phase = .exited then none
    else some { state with current := next }

end AccessState

def accessNext (state : AccessState) : AccessAction → Option AccessState
  | .enter =>
      match state.task with
      | some ⟨false, .running⟩ =>
          some { state.setTask ⟨true, .running⟩ with accessing := true }
      | _ => none
  | .leave =>
      match state.task with
      | some ⟨true, .running⟩ =>
          some { state.setTask ⟨false, .running⟩ with accessing := false }
      | _ => none
  | .fault isUser =>
      match state.task with
      | some ⟨inside, .running⟩ =>
          if isUser && inside then none
          else if handlePageFault isUser state.accessing true = .returned false
          then none
          else some (state.setTask ⟨inside, .handling⟩)
      | _ => none
  | .answer resolved =>
      match state.task with
      | some ⟨inside, .handling⟩ =>
          if resolved then some (state.setTask ⟨inside, .running⟩)
          else some (state.setTask ⟨inside, .exiting⟩)
      | _ => none
  | .exit =>
      match state.task with
      | some ⟨false, .running⟩ => some (state.setTask ⟨false, .exiting⟩)
      | _ => none
  | .finish next =>
      match state.task with
      | some ⟨inside, .exiting⟩ =>
          (state.setTask ⟨inside, .exited⟩).run next
      | _ => none
  | .switch next =>
      match state.task with
      | some ⟨_, .exited⟩ => none
      | some _ => state.run next
      | none => none
  | .spawn =>
      some { state with tasks := state.tasks ++ [⟨false, .running⟩] }

def accessMachine : Machine AccessState AccessAction where
  start state := state.accessing = false ∧ state.current < state.tasks.length ∧
      ∀ task ∈ state.tasks, task = ⟨false, .running⟩
  next := accessNext

structure FlagTracks (state : AccessState) : Prop where
  flag : state.accessing = state.insideOf state.current
  unhandled :
    state.insideOf state.current = false →
      ∀ resolved, handlePageFault false state.accessing resolved = .returned false

def SwitchesAlike (state : AccessState) : AccessAction → Prop
  | .switch next => state.insideOf next = state.insideOf state.current
  | .finish next => state.insideOf next = state.insideOf state.current
  | _ => True

instance (state : AccessState) (action : AccessAction) : Decidable (SwitchesAlike state action) :=
  match action with
  | .switch _ => inferInstanceAs (Decidable (_ = _))
  | .finish _ => inferInstanceAs (Decidable (_ = _))
  | .enter => .isTrue trivial
  | .leave => .isTrue trivial
  | .fault _ => .isTrue trivial
  | .answer _ => .isTrue trivial
  | .exit => .isTrue trivial
  | .spawn => .isTrue trivial

/-! ## What a step does to the flag -/

theorem flagTracks_iff {state : AccessState} :
    FlagTracks state ↔ state.accessing = state.insideOf state.current := by
  constructor
  · exact FlagTracks.flag
  · intro flag
    refine ⟨flag, ?_⟩
    intro outside resolved
    rw [flag, outside]
    rfl

namespace AccessState

variable {state target : AccessState}

theorem insideOf_setTask {before : AccessTask} (found : state.task = some before)
    (task : AccessTask) (index : Nat) :
    (state.setTask task).insideOf index =
      if index = state.current then task.inside else state.insideOf index := by
  obtain ⟨inRange, -⟩ := List.getElem?_eq_some_iff.mp found
  by_cases same : index = state.current
  · subst same
    simp [insideOf, setTask, inRange]
  · rw [if_neg same, insideOf, setTask, List.getElem?_set_ne (Ne.symm same), insideOf]

theorem insideOf_setTask_of_same {inside : Bool} {phase : AccessPhase}
    (found : state.task = some ⟨inside, phase⟩) (later : AccessPhase)
    (index : Nat) :
    (state.setTask ⟨inside, later⟩).insideOf index =
      state.insideOf index := by
  rw [insideOf_setTask found]
  split
  · next same =>
      rw [same, insideOf]
      change _ = state.task.any AccessTask.inside
      rw [found]
      rfl
  · rfl

theorem run_eq_some {next : Nat} (ran : state.run next = some target) :
    target = { state with current := next } := by
  obtain ⟨task, -, isTarget⟩ := Option.bind_eq_some_iff.mp ran
  split at isTarget
  · cases isTarget
  · exact (Option.some.inj isTarget).symm

end AccessState

theorem FlagTracks.setTask {state : AccessState} {inside : Bool} {phase : AccessPhase}
    (tracks : FlagTracks state)
    (found : state.task = some ⟨inside, phase⟩) (later : AccessPhase) :
    FlagTracks (state.setTask ⟨inside, later⟩) := by
  apply flagTracks_iff.mpr
  rw [AccessState.insideOf_setTask_of_same found]
  exact tracks.flag

theorem flagTracks_setTask {state : AccessState} {before : AccessTask}
    (found : state.task = some before) (inside : Bool) (phase : AccessPhase) :
    FlagTracks { state.setTask ⟨inside, phase⟩ with accessing := inside } := by
  apply flagTracks_iff.mpr
  have isInside := AccessState.insideOf_setTask found ⟨inside, phase⟩ state.current
  rw [if_pos rfl] at isInside
  exact isInside.symm

theorem flagTracks_run_iff {state target : AccessState} (tracks : FlagTracks state) {next : Nat}
    (ran : state.run next = some target) :
    FlagTracks target ↔ state.insideOf next = state.insideOf state.current := by
  rw [AccessState.run_eq_some ran, flagTracks_iff]
  change state.accessing = state.insideOf next ↔ _
  rw [tracks.flag]
  exact eq_comm

theorem FlagTracks.spawn {state : AccessState} (tracks : FlagTracks state) :
    FlagTracks { state with tasks := state.tasks ++ [⟨false, .running⟩] } := by
  apply flagTracks_iff.mpr
  change state.accessing =
    ((state.tasks ++ [⟨false, .running⟩])[state.current]?).any AccessTask.inside
  rw [tracks.flag, AccessState.insideOf]
  by_cases inRange : state.current < state.tasks.length
  · rw [List.getElem?_append_left inRange]
  · have beyond := Nat.le_of_not_lt inRange
    rw [List.getElem?_eq_none beyond, List.getElem?_append_right beyond]
    cases state.current - state.tasks.length <;> rfl

theorem flagTracks_next_iff {source target : AccessState} {action : AccessAction}
    (tracks : FlagTracks source)
    (stepped : accessNext source action = some target) :
    FlagTracks target ↔ SwitchesAlike source action := by
  cases action with
  | enter =>
      simp only [accessNext] at stepped
      split at stepped
      · next found =>
          obtain rfl := Option.some.inj stepped
          exact iff_of_true (flagTracks_setTask found true _) trivial
      · cases stepped
  | leave =>
      simp only [accessNext] at stepped
      split at stepped
      · next found =>
          obtain rfl := Option.some.inj stepped
          exact iff_of_true (flagTracks_setTask found false _) trivial
      · cases stepped
  | fault isUser =>
      simp only [accessNext] at stepped
      split at stepped
      · next found =>
          split at stepped
          · cases stepped
          · split at stepped
            · cases stepped
            · obtain rfl := Option.some.inj stepped
              exact iff_of_true (tracks.setTask found _) trivial
      · cases stepped
  | answer resolved =>
      simp only [accessNext] at stepped
      split at stepped
      · next found =>
          split at stepped
          · obtain rfl := Option.some.inj stepped
            exact iff_of_true (tracks.setTask found _) trivial
          · obtain rfl := Option.some.inj stepped
            exact iff_of_true (tracks.setTask found _) trivial
      · cases stepped
  | exit =>
      simp only [accessNext] at stepped
      split at stepped
      · next found =>
          obtain rfl := Option.some.inj stepped
          exact iff_of_true (tracks.setTask found _) trivial
      · cases stepped
  | finish next =>
      simp only [accessNext] at stepped
      split at stepped
      · next found =>
          have alike := flagTracks_run_iff (tracks.setTask found .exited) stepped
          rw [AccessState.insideOf_setTask_of_same found,
            AccessState.insideOf_setTask_of_same found] at alike
          exact alike
      · cases stepped
  | switch next =>
      simp only [accessNext] at stepped
      split at stepped
      · cases stepped
      · exact flagTracks_run_iff tracks stepped
      · cases stepped
  | spawn =>
      obtain rfl := Option.some.inj stepped
      exact iff_of_true tracks.spawn trivial

theorem flagTracks_of_start {state : AccessState} (started : accessMachine.start state) :
    FlagTracks state := by
  obtain ⟨cleared, inRange, outside⟩ := started
  apply flagTracks_iff.mpr
  rw [cleared, AccessState.insideOf, List.getElem?_eq_getElem inRange,
    outside _ (List.getElem_mem inRange)]
  rfl

/-- In every run whose switches lead from a task to another one on the same
side of the closure, the flag says whether the running task is inside, and a
fault of the kernel outside is reported as unhandled. -/
theorem flag_tracks_of_switches_alike {state : AccessState}
    (reached : accessMachine.ReachableWithin SwitchesAlike state) :
    FlagTracks state := by
  refine Machine.ReachableWithin.invariant ?_ ?_ reached
  · intro start started
    exact flagTracks_of_start started
  · intro source action target _ tracks alike stepped
    exact (flagTracks_next_iff tracks stepped).mpr alike

def twoTasks : AccessState where
  accessing := false
  current := 0
  tasks := [⟨false, .running⟩, ⟨false, .running⟩]

theorem twoTasks_start : accessMachine.start twoTasks := ⟨rfl, by decide, by decide⟩

/-- A fault inside is resolved, the closure is left, and the other task
runs. -/
theorem flag_tracks_of_switches_alike_resolved :
    ∃ state, accessMachine.ReachableWithin SwitchesAlike state ∧
      state.current = 1 ∧ FlagTracks state := by
  have meets :
      accessMachine.Meets SwitchesAlike twoTasks
        [.enter, .fault false, .answer true, .leave, .switch 1] :=
    Machine.meets_of_checkMeets (by decide)
  obtain ⟨state, reached, observed⟩ :=
    @Machine.exists_reachableWithin_of_exec _ _ accessMachine SwitchesAlike
      twoTasks [.enter, .fault false, .answer true, .leave, .switch 1]
      (fun state => state.current == 1) twoTasks_start meets (by decide)
  exact ⟨state, reached, beq_iff_eq.mp observed, flag_tracks_of_switches_alike reached⟩

/-- After a task has exited on a fault inside, the next one runs outside with
the flag set, and its faults in the kernel are taken for faults of a user; a
task that was switched off inside comes back with the flag cleared. -/
theorem flag_survives_exit :
    (∃ state, accessMachine.Reachable state ∧ state.tasks = [⟨true, .exited⟩, ⟨false, .running⟩] ∧
      state.current = 1 ∧ state.accessing = true ∧
      handlePageFault false state.accessing true = .returned true ∧
      handlePageFault false state.accessing false = .exits ∧
      ¬ FlagTracks state) ∧
    ∃ state, accessMachine.Reachable state ∧ state.tasks = [⟨true, .running⟩, ⟨false, .running⟩] ∧
      state.current = 0 ∧ state.accessing = false ∧
      handlePageFault false state.accessing true = .returned false ∧
      ¬ FlagTracks state := by
  constructor
  · obtain ⟨state, reached, observed⟩ :=
      @Machine.exists_reachable_of_exec _ _ accessMachine twoTasks
        [.enter, .fault false, .answer false, .finish 1]
        (fun state => decide
          (state.tasks = [⟨true, .exited⟩, ⟨false, .running⟩] ∧
            state.current = 1 ∧ state.accessing = true))
        twoTasks_start (by decide)
    obtain ⟨tasks, current, accessing⟩ := of_decide_eq_true observed
    refine ⟨state, reached, tasks, current, accessing, ?_, ?_, ?_⟩
    · rw [accessing]
      rfl
    · rw [accessing]
      rfl
    · intro tracks
      have flag := tracks.flag
      simp [AccessState.insideOf, tasks, current, accessing] at flag
  · obtain ⟨state, reached, observed⟩ :=
      @Machine.exists_reachable_of_exec _ _ accessMachine twoTasks
        [.enter, .switch 1, .enter, .leave, .switch 0]
        (fun state => decide
          (state.tasks = [⟨true, .running⟩, ⟨false, .running⟩] ∧
            state.current = 0 ∧ state.accessing = false))
        twoTasks_start (by decide)
    obtain ⟨tasks, current, accessing⟩ := of_decide_eq_true observed
    refine ⟨state, reached, tasks, current, accessing, ?_, ?_⟩
    · rw [accessing]
      rfl
    · intro tracks
      have flag := tracks.flag
      simp [AccessState.insideOf, tasks, current, accessing] at flag

end Vegar.Mm

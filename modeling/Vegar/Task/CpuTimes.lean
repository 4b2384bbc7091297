import Vegar.Lib.Machine
import Vegar.Lib.Roster
import Vegar.Outcome
import Vegar.Task.TimeStat

/-!
# The times that `sys_times` reports

`handle_syscall` of `src/syscall.rs` tells the `TimeStat` of the calling task
when a call begins and when it ends, and nothing else does.  The timestamps
of a new `TimeStat` are zero.
-/

namespace Vegar.Task

open Vegar.Lib

structure Tms where
  tmsUtime : Nat
  tmsStime : Nat
  tmsCutime : Nat
  tmsCstime : Nat

def timeStatOutput (stat : TimeStat) : Nat × Nat × Nat × Nat :=
  let (utimeNs, stimeNs) := stat.output
  (utimeNs / 1000000000, utimeNs / 1000, stimeNs / 1000000000, stimeNs / 1000)

/-- `sys_times`, with what `get_as_mut` says of the record of the caller and
what `nanos_to_ticks` makes of the time. -/
def sysTimes (stat : TimeStat) (tms : LinuxResult Unit) (ticks : Nat) :
    LinuxResult (Nat × Tms) := do
  let (_, utimeUs, _, stimeUs) := timeStatOutput stat
  tms
  return (ticks, ⟨utimeUs, stimeUs, utimeUs, stimeUs⟩)

/-! ## Tasks that make calls -/

structure CpuTask where
  time : TimeStat
  entered : Option Nat
  inCalls : Nat

structure CpuState where
  now : Nat
  tasks : List CpuTask

inductive CpuAction where
  /-- `TaskExt::new`. -/
  | spawn
  | elapse (now : Nat)
  /-- `time_stat_from_user_to_kernel`. -/
  | enter (task : Nat)
  /-- `time_stat_from_kernel_to_user`. -/
  | leave (task : Nat)

def cpuNext (state : CpuState) : CpuAction → Option CpuState
  | .spawn =>
      some { state with tasks := state.tasks ++ [⟨.new, none, 0⟩] }
  | .elapse now =>
      if state.now ≤ now ∧ now ≤ usizeMax then some { state with now := now }
      else none
  | .enter index =>
      match state.tasks[index]? with
      | some ⟨time, none, inCalls⟩ =>
          (time.switchIntoKernelMode state.now).map fun time =>
            { state with
              tasks := state.tasks.set index ⟨time, some state.now, inCalls⟩ }
      | _ => none
  | .leave index =>
      match state.tasks[index]? with
      | some ⟨time, some entered, inCalls⟩ =>
          (time.switchIntoUserMode state.now).map fun time =>
            { state with
              tasks := state.tasks.set index ⟨time, none, inCalls + (state.now - entered)⟩ }
      | _ => none

def cpuMachine : Machine CpuState CpuAction where
  start state := state.now ≤ usizeMax ∧ state.tasks = []
  next := cpuNext

/-! ## What is charged -/

structure CpuTask.Metered (now : Nat) (task : CpuTask) : Prop where
  utime : task.time.utimeNs = task.time.kernelTimestamp
  stime : task.time.stimeNs = task.inCalls
  last : task.time.kernelTimestamp ≤ now
  total : task.inCalls ≤ now
  inside :
    ∀ entered, task.entered = some entered →
      entered = task.time.kernelTimestamp ∧ task.inCalls ≤ entered

namespace CpuTask.Metered

variable {now inCalls : Nat} {time : TimeStat}

theorem enter (metered : Metered now ⟨time, none, inCalls⟩) (fits : now ≤ usizeMax) :
    ∃ next, time.switchIntoKernelMode now = some next ∧
      Metered now ⟨next, some now, inCalls⟩ := by
  obtain ⟨utime, stime, last, total, -⟩ := metered
  simp only at utime stime last total
  obtain ⟨next, switched, charges, moved⟩ :=
    @TimeStat.switchIntoKernelMode_eq time now last (by omega)
  obtain ⟨user, system⟩ := Prod.mk.inj charges
  refine ⟨next, switched, ?_, system.trans stime, moved.le, total, ?_⟩
  · simp only [user, moved, TimeStat.output]
    omega
  · intro entered isEntered
    obtain rfl := Option.some.inj isEntered
    exact ⟨moved.symm, total⟩

theorem leave {entered : Nat} (metered : Metered now ⟨time, some entered, inCalls⟩)
    (fits : now ≤ usizeMax) :
    ∃ next, time.switchIntoUserMode now = some next ∧
      Metered now ⟨next, none, inCalls + (now - entered)⟩ := by
  obtain ⟨utime, stime, last, total, inside⟩ := metered
  obtain ⟨isEntered, before⟩ := inside entered rfl
  simp only at utime stime last total isEntered before
  obtain ⟨next, switched, charges, kept⟩ := @TimeStat.switchIntoUserMode_eq time now last (by omega)
  obtain ⟨user, system⟩ := Prod.mk.inj charges
  refine ⟨next, switched, (user.trans utime).trans kept.symm, ?_, kept.trans_le last, ?_, nofun⟩
  · simp only [system, isEntered, TimeStat.output, stime]
  · simp only
    omega

theorem later {task : CpuTask} {later : Nat} (metered : task.Metered now)
    (passed : now ≤ later) : task.Metered later :=
  ⟨metered.utime, metered.stime, metered.last.trans passed,
    metered.total.trans passed, metered.inside⟩

end CpuTask.Metered

structure AllMetered (state : CpuState) : Prop where
  fits : state.now ≤ usizeMax
  tasks : ∀ task ∈ state.tasks, task.Metered state.now

theorem AllMetered.step {source target : CpuState} {action : CpuAction}
    (all : AllMetered source) (stepped : cpuNext source action = some target) :
    AllMetered target := by
  cases action with
  | spawn =>
      obtain rfl := Option.some.inj stepped
      refine ⟨all.fits, Roster.forall_mem_concat all.tasks ?_⟩
      exact ⟨rfl, rfl, Nat.zero_le _, Nat.zero_le _, nofun⟩
  | elapse now =>
      obtain ⟨⟨passed, fits⟩, stepped⟩ := Option.ite_none_right_eq_some.mp stepped
      obtain rfl := Option.some.inj stepped
      exact ⟨fits, fun task member => (all.tasks task member).later passed⟩
  | enter index =>
      simp only [cpuNext] at stepped
      split at stepped
      · next time inCalls found =>
          obtain ⟨next, switched, metered⟩ :=
            (all.tasks _ (List.mem_of_getElem? found)).enter all.fits
          rw [switched] at stepped
          obtain rfl := Option.some.inj stepped
          exact ⟨all.fits, Roster.forall_mem_set all.tasks metered⟩
      · cases stepped
  | leave index =>
      simp only [cpuNext] at stepped
      split at stepped
      · next time entered inCalls found =>
          obtain ⟨next, switched, metered⟩ :=
            (all.tasks _ (List.mem_of_getElem? found)).leave all.fits
          rw [switched] at stepped
          obtain rfl := Option.some.inj stepped
          exact ⟨all.fits, Roster.forall_mem_set all.tasks metered⟩
      · cases stepped

/-- In every interleaving of the calls of all tasks no charge overflows, and
`sys_times` reports as the user time of a task, and of its children, the time
at which the current call began, however long the task has run, and as the
system time what its earlier calls took. -/
theorem times_reports_the_clock
    (state : CpuState) (reached : cpuMachine.Reachable state) (index : Nat)
    (task : CpuTask) (found : state.tasks[index]? = some task) :
    ((cpuNext state (.enter index)).isSome ∨ (cpuNext state (.leave index)).isSome) ∧
      ∀ entered ticks, task.entered = some entered →
        sysTimes task.time (.ok ()) ticks =
          .ok
            (ticks,
              ⟨entered / 1000, task.inCalls / 1000, entered / 1000, task.inCalls / 1000⟩) := by
  have all : AllMetered state := by
    refine Machine.Reachable.invariant ?_ ?_ reached
    · intro start started
      refine ⟨started.1, ?_⟩
      rw [started.2]
      nofun
    · intro source action target _ all stepped
      exact all.step stepped
  have metered := all.tasks task (List.mem_of_getElem? found)
  obtain ⟨time, inside, inCalls⟩ := task
  constructor
  · cases inside with
    | none =>
        obtain ⟨next, switched, -⟩ := metered.enter all.fits
        simp [cpuNext, found, switched]
    | some entered =>
        obtain ⟨next, switched, -⟩ := metered.leave all.fits
        simp [cpuNext, found, switched]
  · intro entered ticks isInside
    obtain ⟨isEntered, -⟩ := metered.inside entered isInside
    rw [isEntered, ← metered.utime, ← metered.stime]
    rfl

def twoCalls : List CpuAction :=
  [.spawn, .elapse 5000, .enter 0, .elapse 7000, .leave 0, .elapse 9000, .enter 0]

theorem times_reports_the_clock_twice :
    ∃ state task,
      cpuMachine.Reachable state ∧ state.tasks[0]? = some task ∧
        sysTimes task.time (.ok ()) 0 = .ok (0, ⟨9, 2, 9, 2⟩) := by
  have started : cpuMachine.start ⟨0, []⟩ := ⟨by decide, rfl⟩
  obtain ⟨state, reached, observed⟩ := cpuMachine.exists_reachable_of_exec twoCalls (fun state =>
        state.tasks.map (fun task => (task.entered, task.inCalls)) == [(some 9000, 2000)])
      started (by decide)
  obtain ⟨task, isTask, isSame⟩ := List.map_eq_singleton_iff.mp (beq_iff_eq.mp observed)
  have found : state.tasks[0]? = some task := by rw [isTask]; rfl
  obtain ⟨isEntered, isInCalls⟩ := Prod.mk.inj isSame
  have reported := (times_reports_the_clock state reached 0 task found).2 9000 0 isEntered
  rw [isInCalls] at reported
  exact ⟨state, task, reached, found, reported⟩

end Vegar.Task

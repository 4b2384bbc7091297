import Vegar.File.FdCalls
import Vegar.Lib.Machine
import Vegar.Lib.Roster
import Vegar.Task.Clone

/-!
# Descriptors across processes

The kernel seen through its descriptor tables: processes start, clone, work
on their tables and exit, in any order.  Two invariants of every run carry
the results: the reference counters agree with the slots, and a table without
a live process is empty.
-/

namespace Vegar.Task

open Vegar.Lib Vegar.File

/-- A step of the kernel that concerns descriptors; `pid` is the position of
the acting process.  Position `0` is the kernel's own task. -/
inductive FdAction where
  | runUserApp
  | openFile (pid : Nat)
  | pipe2 (pid : Nat) (fds : LinuxResult Unit)
  | dup (pid : Nat) (oldFd : BitVec 32)
  | dup2 (pid : Nat) (oldFd newFd : BitVec 32)
  | fcntl (pid : Nat) (fd cmd : BitVec 32)
  | close (pid : Nat) (fd : BitVec 32)
  | clone (pid : Nat) (flags : BitVec 32) (env : CloneEnv)
  | exit (pid : Nat)

/-- The table `init_stdio` sets up. -/
def stdioSlots : FdSlots := ((FlattenObjects.new.setSlot 0 (some (.other 0))).setSlot 1
    (some (.other 1))).setSlot 2 (some (.other 2))

def bootWorld : FdWorld where
  strong
    | .other number => if number < 3 then 1 else 0
    | .pipeEnd _ _ => 0
  bufferStrong _ := 0
  files := 3
  pipes := 0
  tables := [stdioSlots]
  processes := [⟨0, 1⟩]

def runningProcess (world : FdWorld) (pid : Nat) : Option FdProcess :=
  if pid = 0 then none
  else (world.processes[pid]?).filter fun process => 0 < process.threads

/-- `init_new`: a new process with a table of its own. -/
def initNew (copied : FdWorld × FdSlots) : FdWorld :=
  { copied.1 with
    tables := copied.1.tables ++ [copied.2]
    processes := copied.1.processes ++ [⟨copied.1.tables.length, 1⟩] }

def spawnCopied (world : FdWorld) (table : Nat) : FdWorld := initNew (world.copyInner table)

def spawnShared (world : FdWorld) (table : Nat) : FdWorld :=
  { world with processes := world.processes ++ [⟨table, 1⟩] }

def setThreads (world : FdWorld) (pid : Nat) (process : FdProcess) (threads : Nat) : FdWorld :=
  { world with
    processes := world.processes.set pid { process with threads := threads } }

/-- `sys_clone`, as far as descriptors are concerned. -/
def sysClone (world : FdWorld) (pid : Nat) (process : FdProcess)
    (flags : BitVec 32) (env : CloneEnv) : FdWorld :=
  match planClone flags env with
  | .error _ => world
  | .ok .thread => setThreads world pid process (process.threads + 1)
  | .ok (.process true) => spawnShared world process.table
  | .ok (.process false) => spawnCopied world process.table

/-- `do_exit` of one thread; the last one clears the table. -/
def doExit (world : FdWorld) (pid : Nat) (process : FdProcess) : FdWorld :=
  let after := setThreads world pid process (process.threads - 1)
  if process.threads = 1 then after.clear process.table else after

def fdNext (allocator : IdAllocator FileRef axFileLimit)
    (world : FdWorld) : FdAction → Option FdWorld
  | .runUserApp => (world.processes[0]?).map fun kernel =>
      spawnCopied world kernel.table
  | .openFile pid => (runningProcess world pid).map fun process =>
      (world.openFile allocator process.table).2
  | .pipe2 pid fds => (runningProcess world pid).map fun process =>
      (world.sysPipe2 allocator process.table fds).2
  | .dup pid oldFd => (runningProcess world pid).map fun process =>
      (world.dupFd allocator process.table oldFd).2
  | .dup2 pid oldFd newFd => (runningProcess world pid).bind fun process =>
      match world.sysDup2 process.table oldFd newFd with
      | (.error .panicked, _) => none
      | (_, after) => some after
  | .fcntl pid fd cmd => (runningProcess world pid).map fun process =>
      (world.sysFcntl allocator process.table fd cmd).2
  | .close pid fd => (runningProcess world pid).map fun process =>
      (world.closeFileLike process.table fd).2
  | .clone pid flags env => (runningProcess world pid).map fun process =>
      sysClone world pid process flags env
  | .exit pid => (runningProcess world pid).map fun process =>
      doExit world pid process

def fdMachine (allocator : IdAllocator FileRef axFileLimit) : Machine FdWorld FdAction where
  start world := world = bootWorld
  next := fdNext allocator

/-! ## The invariant of every run -/

def LiveTable (world : FdWorld) (table : Nat) : Prop :=
  ∃ process ∈ world.processes, 0 < process.threads ∧ process.table = table

structure DescriptorsSound (world : FdWorld) : Prop where
  balanced : world.Balanced [] []
  tablesExist : ∀ process ∈ world.processes, process.table < world.tables.length
  deadEmpty : ∀ table, ¬ LiveTable world table → world.tableAt table = .new

structure SoundHolding (held : List FileRef) (world : FdWorld) : Prop where
  balanced : world.Balanced held []
  tablesExist : ∀ process ∈ world.processes, process.table < world.tables.length
  deadEmpty : ∀ table, ¬ LiveTable world table → world.tableAt table = .new

variable {world : FdWorld}

theorem DescriptorsSound.holding (sound : DescriptorsSound world) :
    SoundHolding [] world :=
  ⟨sound.balanced, sound.tablesExist, sound.deadEmpty⟩

theorem SoundHolding.descriptorsSound (sound : SoundHolding [] world) :
    DescriptorsSound world :=
  ⟨sound.balanced, sound.tablesExist, sound.deadEmpty⟩

namespace SoundHolding

variable {held : List FileRef} {world after : FdWorld}

theorem leaves (sound : SoundHolding held world) {table : Nat}
    (live : LiveTable world table) {heldAfter : List FileRef}
    {bound : Nat} (call : FdWorld.Leaves table bound world after heldAfter []) :
    SoundHolding heldAfter after where
  balanced := call.balanced
  tablesExist process member := by
    rw [call.only.processes] at member
    rw [call.only.length]
    exact sound.tablesExist process member
  deadEmpty other dead := by
    have sameLive : LiveTable after other ↔ LiveTable world other := by
      rw [LiveTable, call.only.processes, LiveTable]
    have different : other ≠ table := by
      rintro rfl
      exact dead (sameLive.mpr live)
    rw [call.only.tableAt_eq different]
    exact sound.deadEmpty other fun wasLive => dead (sameLive.mpr wasLive)

theorem perm (sound : SoundHolding held world) {heldAfter : List FileRef}
    (reordered : held.Perm heldAfter) :
    SoundHolding heldAfter world :=
  ⟨sound.balanced.perm reordered, sound.tablesExist, sound.deadEmpty⟩

theorem release {ref : FileRef} (sound : SoundHolding (ref :: held) world) :
    SoundHolding held (world.release ref) where
  balanced := sound.balanced.release
  tablesExist := by
    rw [FdWorld.release_processes, FdWorld.release_tables]
    exact sound.tablesExist
  deadEmpty table dead := by
    rw [LiveTable, FdWorld.release_processes] at dead
    rw [FdWorld.tableAt_release]
    exact sound.deadEmpty table dead

theorem spawnShared (sound : SoundHolding held world) {table : Nat}
    (known : table < world.tables.length) :
    SoundHolding held (spawnShared world table) where
  balanced := sound.balanced.withProcesses _
  tablesExist := Roster.forall_mem_concat sound.tablesExist known
  deadEmpty other dead := by
    apply sound.deadEmpty other
    rintro ⟨process, member, running, isTable⟩
    exact dead ⟨process, List.mem_append_left _ member, running, isTable⟩

private theorem initNew_balanced {copied : FdWorld × FdSlots} {owed : List FileRef}
    (balanced : copied.1.Balanced owed [])
    (all : ∀ ref, owed.count ref = held.count ref + copied.2.count ref) :
    (initNew copied).Balanced held [] :=
  (balanced.appendTable all).withProcesses _

theorem spawnCopied (sound : SoundHolding held world) {table : Nat}
    (known : table < world.tables.length) :
    SoundHolding held (spawnCopied world table) := by
  obtain ⟨sameTable, tables, processes, -, owed, balanced, counts⟩ :=
    FdWorld.copyInner_spec sound.balanced known
  have all : ∀ ref, owed.count ref = held.count ref + (world.copyInner table).2.count ref := by
    intro ref
    rw [counts ref, sameTable]
  refine ⟨initNew_balanced balanced all, ?_, ?_⟩
  · intro process member
    simp only [Task.spawnCopied, initNew, processes, tables, List.mem_append,
      List.mem_singleton, List.length_append, List.length_singleton]
      at member ⊢
    rcases member with old | rfl
    · have := sound.tablesExist process old
      omega
    · simp
  · intro other dead
    have notNew : other ≠ world.tables.length := by
      rintro rfl
      apply dead
      refine ⟨⟨world.tables.length, 1⟩, ?_, Nat.one_pos, rfl⟩
      simp [Task.spawnCopied, initNew, tables]
    have wasDead : ¬ LiveTable world other := by
      rintro ⟨process, member, running, isTable⟩
      refine dead ⟨process, ?_, running, isTable⟩
      simp [Task.spawnCopied, initNew, processes, member]
    have before := sound.deadEmpty other wasDead
    simp only [FdWorld.tableAt, Task.spawnCopied, initNew, tables] at before ⊢
    rw [List.getElem?_append]
    by_cases old : other < world.tables.length
    · rw [if_pos old]
      exact before
    · rw [if_neg old]
      have beyond : 1 ≤ other - world.tables.length := by omega
      have missing :
          [(world.copyInner table).2][other - world.tables.length]? =
            none := by
        rw [List.getElem?_eq_none_iff, List.length_singleton]
        exact beyond
      rw [missing, Option.getD_none]

theorem setThreads (sound : SoundHolding held world) {pid threads : Nat} {process : FdProcess}
    (found : world.processes[pid]? = some process)
    (stillLive : ∀ table, LiveTable world table →
      LiveTable (setThreads world pid process threads) table) :
    SoundHolding held (setThreads world pid process threads) where
  balanced := sound.balanced.withProcesses _
  tablesExist :=
    Roster.forall_mem_set sound.tablesExist (sound.tablesExist process (List.mem_of_getElem? found))
  deadEmpty table dead := sound.deadEmpty table fun live => dead (stillLive table live)

end SoundHolding

variable {pid table : Nat} {process : FdProcess}

theorem liveTable_setThreads {threads : Nat} (found : world.processes[pid]? = some process)
    (live : LiveTable world table)
    (kept : process.table = table → 0 < threads) :
    LiveTable (setThreads world pid process threads) table := by
  obtain ⟨owner, member, running, isTable⟩ := live
  obtain ⟨position, at_⟩ := List.mem_iff_getElem?.mp member
  have inside := (List.getElem?_eq_some_iff.mp found).1
  by_cases same : position = pid
  · subst same
    have isOwner : owner = process := Option.some.inj (at_.symm.trans found)
    subst isOwner
    exact ⟨{ owner with threads := threads }, List.mem_set inside _, kept isTable, isTable⟩
  · refine ⟨owner, List.mem_iff_getElem?.mpr ⟨position, ?_⟩, running, isTable⟩
    change (world.processes.set pid _)[position]? = some owner
    rw [List.getElem?_set_ne (Ne.symm same)]
    exact at_

theorem runningProcess_eq_some :
    runningProcess world pid = some process ↔
      pid ≠ 0 ∧ world.processes[pid]? = some process ∧ 0 < process.threads := by
  unfold runningProcess
  by_cases kernel : pid = 0
  · simp [kernel]
  · simp [kernel, Option.filter_eq_some_iff]

inductive FdStep (held : List FileRef) (world : FdWorld) : FdAction → FdWorld → Prop
  | start {kernel : FdProcess} : world.processes[0]? = some kernel →
      FdStep held world .runUserApp (spawnCopied world kernel.table)
  | call {action : FdAction} {pid : Nat} {process : FdProcess} {target : FdWorld} :
      runningProcess world pid = some process →
      FdWorld.Leaves process.table world.pipes world target held [] →
      FdStep held world action target
  | clone {pid : Nat} {process : FdProcess} : runningProcess world pid = some process →
      ∀ (flags : BitVec 32) (env : CloneEnv),
        FdStep held world (.clone pid flags env) (sysClone world pid process flags env)
  | exit {pid : Nat} {process : FdProcess} : runningProcess world pid = some process →
      FdStep held world (.exit pid) (doExit world pid process)

variable {target : FdWorld}

theorem sysDup2_of_next {oldFd newFd : BitVec 32}
    (returned :
      (match world.sysDup2 table oldFd newFd with
        | (.error .panicked, _) => none
        | (_, after) => some after) = some target) :
    ∃ result,
      world.sysDup2 table oldFd newFd = (result, target) ∧
        result ≠ .error .panicked := by
  cases called : world.sysDup2 table oldFd newFd with
  | mk result after =>
      rw [called] at returned
      rcases result with (_ | _ | _ | _) | _ <;> simp_all

namespace SoundHolding

variable {held : List FileRef} {world : FdWorld}

theorem doExit (sound : SoundHolding held world) (found : world.processes[pid]? = some process)
    (running : 0 < process.threads) :
    SoundHolding held (doExit world pid process) := by
  have known := sound.tablesExist process (List.mem_of_getElem? found)
  by_cases last : process.threads = 1
  · have balanced : (Task.setThreads world pid process (process.threads - 1)).Balanced held [] :=
      sound.balanced.withProcesses _
    obtain ⟨cleared, empty⟩ := FdWorld.clear_spec balanced known
    rw [Task.doExit, if_pos last]
    refine ⟨cleared.balanced, ?_, ?_⟩
    · rw [cleared.only.processes, cleared.only.length]
      exact Roster.forall_mem_set sound.tablesExist known
    · intro table dead
      by_cases own : table = process.table
      · rw [own]
        exact empty
      · rw [cleared.only.tableAt_eq own]
        apply sound.deadEmpty table
        intro live
        apply dead
        rw [LiveTable, cleared.only.processes]
        exact liveTable_setThreads found live fun isTable =>
          (own isTable.symm).elim
  · rw [Task.doExit, if_neg last]
    apply sound.setThreads found
    intro table live
    exact liveTable_setThreads found live fun _ => by omega

theorem sysClone (sound : SoundHolding held world) (found : world.processes[pid]? = some process)
    (flags : BitVec 32) (env : CloneEnv) :
    SoundHolding held (sysClone world pid process flags env) := by
  have known := sound.tablesExist process (List.mem_of_getElem? found)
  unfold Task.sysClone
  rcases planClone flags env with error | (_ | (_ | _))
  · exact sound
  · apply sound.setThreads found
    intro table live
    exact liveTable_setThreads found live fun _ => Nat.succ_pos _
  · exact sound.spawnCopied known
  · exact sound.spawnShared known

theorem fdStep_of_next {allocator : IdAllocator FileRef axFileLimit}
    (sound : SoundHolding held world) {action : FdAction}
    (stepped : fdNext allocator world action = some target) :
    FdStep held world action target := by
  have known :
      ∀ {pid : Nat} {process : FdProcess},
        runningProcess world pid = some process →
          process.table < world.tables.length := by
    intro pid process running
    obtain ⟨-, found, -⟩ := runningProcess_eq_some.mp running
    exact sound.tablesExist process (List.mem_of_getElem? found)
  cases action with
  | runUserApp =>
      obtain ⟨kernel, found, rfl⟩ := Option.map_eq_some_iff.mp stepped
      exact .start found
  | openFile pid =>
      obtain ⟨process, running, rfl⟩ := Option.map_eq_some_iff.mp stepped
      exact .call running (FdWorld.openFile_leaves sound.balanced (known running))
  | pipe2 pid fds =>
      obtain ⟨process, running, rfl⟩ := Option.map_eq_some_iff.mp stepped
      exact .call running (FdWorld.sysPipe2_leaves sound.balanced (known running) fds)
  | dup pid oldFd =>
      obtain ⟨process, running, rfl⟩ := Option.map_eq_some_iff.mp stepped
      exact .call running (FdWorld.dupFd_leaves sound.balanced (known running) oldFd)
  | dup2 pid oldFd newFd =>
      obtain ⟨process, running, returned⟩ := Option.bind_eq_some_iff.mp stepped
      obtain ⟨result, called, noPanic⟩ := sysDup2_of_next returned
      exact .call running (FdWorld.sysDup2_leaves sound.balanced (known running) called noPanic)
  | fcntl pid fd cmd =>
      obtain ⟨process, running, rfl⟩ := Option.map_eq_some_iff.mp stepped
      exact .call running (FdWorld.sysFcntl_leaves sound.balanced (known running) fd cmd)
  | close pid fd =>
      obtain ⟨process, running, rfl⟩ := Option.map_eq_some_iff.mp stepped
      exact .call running (FdWorld.closeFileLike_leaves _ sound.balanced (known running) fd)
  | clone pid flags env =>
      obtain ⟨process, running, rfl⟩ := Option.map_eq_some_iff.mp stepped
      exact .clone running flags env
  | exit pid =>
      obtain ⟨process, running, rfl⟩ := Option.map_eq_some_iff.mp stepped
      exact .exit running

theorem step (sound : SoundHolding held world) {action : FdAction} {target : FdWorld}
    (stepped : FdStep held world action target) :
    SoundHolding held target := by
  cases stepped with
  | start found =>
      exact sound.spawnCopied (sound.tablesExist _ (List.mem_of_getElem? found))
  | call running leaves =>
      obtain ⟨-, found, alive⟩ := runningProcess_eq_some.mp running
      have live : LiveTable world _ := ⟨_, List.mem_of_getElem? found, alive, rfl⟩
      exact sound.leaves live leaves
  | clone running flags env =>
      obtain ⟨-, found, -⟩ := runningProcess_eq_some.mp running
      exact sound.sysClone found flags env
  | exit running =>
      obtain ⟨-, found, alive⟩ := runningProcess_eq_some.mp running
      exact sound.doExit found alive

theorem next {allocator : IdAllocator FileRef axFileLimit}
    (sound : SoundHolding held world) {action : FdAction}
    (stepped : fdNext allocator world action = some target) :
    SoundHolding held target :=
  sound.step (sound.fdStep_of_next stepped)

end SoundHolding

namespace DescriptorsSound

variable {world : FdWorld}

private theorem count_three {cap : Nat} (room : 2 < cap) (first second third ref : FileRef) :
    ((((FlattenObjects.new : FlattenObjects FileRef cap).setSlot 0
        (some first)).setSlot 1 (some second)).setSlot 2 (some third)).count ref =
      (if first = ref then 1 else 0) + (if second = ref then 1 else 0) +
        if third = ref then 1 else 0 := by
  have zeroInside : 0 < cap := by omega
  have oneInside : 1 < cap := by omega
  have zeroFree : (FlattenObjects.new : FlattenObjects FileRef cap).get 0 = none :=
    FlattenObjects.get_new 0
  have oneFree :
      ((FlattenObjects.new : FlattenObjects FileRef cap).setSlot 0 (some first)).get 1 = none := by
    simp [FlattenObjects.get_setSlot, zeroInside]
  have twoFree :
      (((FlattenObjects.new : FlattenObjects FileRef cap).setSlot 0
        (some first)).setSlot 1 (some second)).get 2 = none := by
    simp [FlattenObjects.get_setSlot, zeroInside, oneInside]
  rw [FlattenObjects.count_setSlot_of_free room twoFree,
    FlattenObjects.count_setSlot_of_free oneInside oneFree,
    FlattenObjects.count_setSlot_of_free zeroInside zeroFree,
    FlattenObjects.count_new, Nat.zero_add]

theorem boot : DescriptorsSound bootWorld where
  balanced :=
    { counted := by
        intro ref
        have count : stdioSlots.count ref = _ :=
          count_three (by decide) (.other 0) (.other 1) (.other 2) ref
        simp only [FdWorld.slotCount, bootWorld, List.map_cons,
          List.map_nil, List.sum_cons, List.sum_nil, List.count_nil,
          count]
        cases ref with
        | other number =>
            simp only [FileRef.other.injEq]
            split_ifs <;> omega
        | pipeEnd pipe readable =>
            simp
      buffers := fun _ => rfl
      freshPipe := fun _ _ _ => rfl
      freshFile := by
        intro number fresh
        change 3 ≤ number at fresh
        simp [bootWorld, Nat.not_lt.mpr fresh] }
  tablesExist process member := by
    rw [List.mem_singleton.mp member]
    exact Nat.one_pos
  deadEmpty table dead := by
    have notFirst : table ≠ 0 := by
      rintro rfl
      exact dead ⟨⟨0, 1⟩, List.mem_singleton_self _, Nat.one_pos, rfl⟩
    have missing : bootWorld.tables[table]? = none := by
      rw [List.getElem?_eq_none_iff]
      exact Nat.one_le_iff_ne_zero.mpr notFirst
    rw [FdWorld.tableAt, missing, Option.getD_none]

theorem of_reachable {allocator : IdAllocator FileRef axFileLimit}
    (reached : (fdMachine allocator).Reachable world) :
    DescriptorsSound world := by
  refine Machine.Reachable.invariant ?_ ?_ reached
  · rintro _ rfl
    exact boot
  · intro source action target _ sound stepped
    exact (sound.holding.next stepped).descriptorsSound

theorem fdStep_of_next {allocator : IdAllocator FileRef axFileLimit}
    (sound : DescriptorsSound world) {action : FdAction}
    (stepped : fdNext allocator world action = some target) :
    FdStep [] world action target :=
  sound.holding.fdStep_of_next stepped

end DescriptorsSound

variable {allocator : IdAllocator FileRef axFileLimit}

theorem reachable_of_next {action : FdAction} (reached : (fdMachine allocator).Reachable world)
    (stepped : fdNext allocator world action = some target) :
    (fdMachine allocator).Reachable target :=
  reached.step action stepped

theorem fdNext_clone_shared {allocator : IdAllocator FileRef axFileLimit} {world : FdWorld}
    {pid : Nat} {process : FdProcess} {flags : BitVec 32} {env : CloneEnv}
    (running : runningProcess world pid = some process)
    (plan : planClone flags env = .ok (.process true)) :
    fdNext allocator world (.clone pid flags env) = some (spawnShared world process.table) := by
  rw [fdNext, running, Option.map_some, sysClone, plan]

theorem fdNext_clone_copied {allocator : IdAllocator FileRef axFileLimit} {world : FdWorld}
    {pid : Nat} {process : FdProcess} {flags : BitVec 32} {env : CloneEnv}
    (running : runningProcess world pid = some process)
    (plan : planClone flags env = .ok (.process false)) :
    fdNext allocator world (.clone pid flags env) = some (spawnCopied world process.table) := by
  rw [fdNext, running, Option.map_some, sysClone, plan]

theorem SoundHolding.spawnCopied_spec {held : List FileRef} (sound : SoundHolding held world)
    (known : table < world.tables.length) :
    (Task.spawnCopied world table).processes = world.processes ++ [⟨world.tables.length, 1⟩] ∧
      (Task.spawnCopied world table).tables =
        world.tables ++ [world.tableAt table] := by
  obtain ⟨sameTable, tables, processes, -⟩ := FdWorld.copyInner_spec sound.balanced known
  rw [Task.spawnCopied, initNew, sameTable, tables, processes]
  exact ⟨rfl, rfl⟩

/-! ## Exit and the tables of other processes -/

def seenBy (world : FdWorld) (pid : Nat) : Option FdSlots :=
  (world.processes[pid]?).map fun process => world.tableAt process.table

def LiveProcess (world : FdWorld) (pid : Nat) : Prop :=
  ∃ process, world.processes[pid]? = some process ∧ 0 < process.threads

theorem seenBy_of_found (found : world.processes[pid]? = some process) :
    seenBy world pid = some (world.tableAt process.table) := by
  rw [seenBy, found, Option.map_some]

theorem SoundHolding.doExit_last_tables {held : List FileRef} (sound : SoundHolding held world)
    (found : world.processes[pid]? = some process)
    (last : process.threads = 1) :
    (Task.doExit world pid process).processes =
        world.processes.set pid { process with threads := 0 } ∧
      (Task.doExit world pid process).tableAt process.table = .new ∧
      ∀ table, table ≠ process.table →
        (Task.doExit world pid process).tableAt table = world.tableAt table := by
  have known := sound.tablesExist process (List.mem_of_getElem? found)
  have balanced : (Task.setThreads world pid process (process.threads - 1)).Balanced held [] :=
    sound.balanced.withProcesses _
  obtain ⟨cleared, empty⟩ := FdWorld.clear_spec balanced known
  rw [Task.doExit, if_pos last]
  refine ⟨?_, empty, ?_⟩
  · rw [cleared.only.processes, last]
    rfl
  · intro table different
    exact cleared.only.tableAt_eq different

/-- The exit of a process leaves the tables of all other live processes alone
exactly when none of them has the table of the exiting process, unless that
table is empty anyway. -/
theorem exit_keeps_other_tables_iff
    {allocator : IdAllocator FileRef axFileLimit} {world target : FdWorld}
    (reached : (fdMachine allocator).Reachable world)
    {pid : Nat} {process : FdProcess}
    (found : world.processes[pid]? = some process)
    (last : process.threads = 1)
    (exited : fdNext allocator world (.exit pid) = some target) :
    (∀ other, other ≠ pid → LiveProcess world other → seenBy target other = seenBy world other) ↔
      ∀ other sharer, other ≠ pid →
        world.processes[other]? = some sharer → 0 < sharer.threads →
          sharer.table = process.table → world.tableAt process.table = .new := by
  have sound := DescriptorsSound.of_reachable reached
  obtain ⟨actor, running, rfl⟩ := Option.map_eq_some_iff.mp exited
  obtain ⟨-, actorFound, -⟩ := runningProcess_eq_some.mp running
  have isActor : actor = process := Option.some.inj (actorFound.symm.trans found)
  subst isActor
  obtain ⟨processes, empty, others⟩ := sound.holding.doExit_last_tables found last
  have foundAfter :
      ∀ other, other ≠ pid →
        (doExit world pid actor).processes[other]? = world.processes[other]? := by
    intro other different
    rw [processes, List.getElem?_set_ne (Ne.symm different)]
  constructor
  · intro kept other sharer different sharerFound alive shares
    have same := kept other different ⟨sharer, sharerFound, alive⟩
    rw [seenBy_of_found sharerFound,
      seenBy_of_found ((foundAfter other different).trans sharerFound),
      shares, empty] at same
    exact (Option.some.inj same).symm
  · rintro harmless other different ⟨sharer, sharerFound, alive⟩
    rw [seenBy_of_found sharerFound,
      seenBy_of_found ((foundAfter other different).trans sharerFound)]
    by_cases shares : sharer.table = actor.table
    · rw [shares, empty, harmless other sharer different sharerFound alive shares]
    · rw [others sharer.table shares]

def CloneEnv.willing : CloneEnv where
  childTid := .ok ()
  parentTid := .ok ()
  hasParent := true
  aspaceCopy := .ok ()

def sharedWorld : FdWorld := spawnShared (spawnCopied bootWorld 0) 1

def copiedWorld : FdWorld := spawnCopied (spawnCopied bootWorld 0) 1

theorem firstProcess_spec :
    (spawnCopied bootWorld 0).processes = [⟨0, 1⟩, ⟨1, 1⟩] ∧
      (spawnCopied bootWorld 0).tables = [stdioSlots, stdioSlots] := by
  have isTable : bootWorld.tables[0]? = some stdioSlots := rfl
  obtain ⟨processes, tables⟩ := DescriptorsSound.boot.holding.spawnCopied_spec Nat.one_pos
  rw [processes, tables, FdWorld.tableAt_eq isTable]
  exact ⟨rfl, rfl⟩

section Runs

variable {allocator : IdAllocator FileRef axFileLimit}

private theorem firstProcess_reachable :
    (fdMachine allocator).Reachable (spawnCopied bootWorld 0) :=
  (Machine.Reachable.start rfl).step .runUserApp rfl

theorem firstProcess_running : runningProcess (spawnCopied bootWorld 0) 1 = some ⟨1, 1⟩ := by
  rw [runningProcess_eq_some, firstProcess_spec.1]
  exact ⟨by decide, rfl, Nat.one_pos⟩

theorem sharedWorld_reachable : (fdMachine allocator).Reachable sharedWorld := by
  have shares : planClone (CloneFlags.files ||| 17) .willing = .ok (.process true) := by
    decide
  have stepped := @fdNext_clone_shared allocator _ _ _ _ _ firstProcess_running shares
  rw [sharedWorld]
  exact reachable_of_next firstProcess_reachable stepped

theorem copiedWorld_reachable : (fdMachine allocator).Reachable copiedWorld := by
  have copies : planClone 17 .willing = .ok (.process false) := by
    decide
  have stepped := @fdNext_clone_copied allocator _ _ _ _ _ firstProcess_running copies
  rw [copiedWorld]
  exact reachable_of_next firstProcess_reachable stepped

end Runs

theorem copiedWorld_processes : copiedWorld.processes = [⟨0, 1⟩, ⟨1, 1⟩, ⟨2, 1⟩] := by
  have sound : DescriptorsSound (spawnCopied bootWorld 0) :=
    (DescriptorsSound.boot.holding.spawnCopied Nat.one_pos).descriptorsSound
  have known : 1 < (spawnCopied bootWorld 0).tables.length := by
    rw [firstProcess_spec.2]
    decide
  rw [copiedWorld, (sound.holding.spawnCopied_spec known).1, firstProcess_spec.1, firstProcess_spec.2]
  rfl

theorem sharedWorld_processes : sharedWorld.processes = [⟨0, 1⟩, ⟨1, 1⟩, ⟨1, 1⟩] := by
  rw [sharedWorld, spawnShared, firstProcess_spec.1]
  rfl

private theorem sharedWorld_stdin : (sharedWorld.tableAt 1).get 0 = some (.other 0) := by
  have isTable : sharedWorld.tables[1]? = some stdioSlots := by
    rw [sharedWorld, spawnShared, firstProcess_spec.2]
    rfl
  rw [FdWorld.tableAt_eq isTable, stdioSlots, FlattenObjects.get_setSlot _ (by decide),
    FlattenObjects.get_setSlot _ (by decide),
    FlattenObjects.get_setSlot _ (by decide)]
  rfl

private theorem exit_first (found : world.processes[1]? = some ⟨1, 1⟩) :
    fdNext allocator world (.exit 1) = some (doExit world 1 ⟨1, 1⟩) := by
  have running : runningProcess world 1 = some ⟨1, 1⟩ :=
    runningProcess_eq_some.mpr ⟨by decide, found, Nat.one_pos⟩
  change (runningProcess world 1).map _ = _
  rw [running, Option.map_some]

theorem exit_keeps_other_tables_iff_copiedWorld :
    (∀ other, other ≠ 1 → LiveProcess copiedWorld other →
        seenBy (doExit copiedWorld 1 ⟨1, 1⟩) other = seenBy copiedWorld other) ↔
      ∀ other sharer, other ≠ 1 →
        copiedWorld.processes[other]? = some sharer →
          0 < sharer.threads → sharer.table = 1 → copiedWorld.tableAt 1 = .new := by
  have found : copiedWorld.processes[1]? = some ⟨1, 1⟩ := by
    rw [copiedWorld_processes]
    rfl
  exact @exit_keeps_other_tables_iff (.smallest _ _) copiedWorld _
      copiedWorld_reachable 1 ⟨1, 1⟩ found rfl (exit_first found)

/-- The exit of a process closes the standard input of a live process it
shares its table with. -/
theorem exit_clears_shared_table :
    (fdMachine (.smallest _ _)).Reachable sharedWorld ∧ sharedWorld.processes[1]? = some ⟨1, 1⟩ ∧
      fdNext (.smallest _ _) sharedWorld (.exit 1) = some (doExit sharedWorld 1 ⟨1, 1⟩) ∧
      LiveProcess sharedWorld 2 ∧
      seenBy (doExit sharedWorld 1 ⟨1, 1⟩) 2 ≠ seenBy sharedWorld 2 := by
  have found : sharedWorld.processes[1]? = some ⟨1, 1⟩ := by
    rw [sharedWorld_processes]
    rfl
  have otherFound : sharedWorld.processes[2]? = some ⟨1, 1⟩ := by
    rw [sharedWorld_processes]
    rfl
  refine ⟨sharedWorld_reachable, found, exit_first found, ⟨_, otherFound, Nat.one_pos⟩, ?_⟩
  intro same
  have sound : DescriptorsSound sharedWorld :=
    @DescriptorsSound.of_reachable _ (.smallest _ _) sharedWorld_reachable
  obtain ⟨processes, empty, -⟩ := sound.holding.doExit_last_tables found rfl
  have foundAfter : (doExit sharedWorld 1 ⟨1, 1⟩).processes[2]? = some ⟨1, 1⟩ := by
    rw [processes, List.getElem?_set_ne (by decide)]
    exact otherFound
  rw [seenBy_of_found foundAfter, seenBy_of_found otherFound, empty] at same
  have lost := sharedWorld_stdin
  rw [← Option.some.inj same, FlattenObjects.get_new] at lost
  cases lost

/-! ## End of file and broken pipes -/

def tableOf (world : FdWorld) (pid : Nat) : Option Nat :=
  (world.processes[pid]?).map FdProcess.table

theorem closed_iff_other_end_dropped (balanced : world.Balanced [] [])
    {pipe : Nat} {readable : Bool}
    (alive : 0 < world.strong (.pipeEnd pipe readable)) :
    world.closed pipe = true ↔ world.strong (.pipeEnd pipe (!readable)) = 0 := by
  have buffers := balanced.buffers pipe
  rw [List.count_nil] at buffers
  have thisEnd : world.liveEnd pipe readable = 1 := by
    rw [FdWorld.liveEnd, if_pos alive]
  have otherEnd :
      world.liveEnd pipe (!readable) = 0 ↔ world.strong (.pipeEnd pipe (!readable)) = 0 := by
    simp [FdWorld.liveEnd]
  rw [FdWorld.closed, beq_iff_eq, ← otherEnd]
  cases readable <;> simp only [Bool.not_true, Bool.not_false] at * <;> omega

theorem DescriptorsSound.dropped_iff (sound : DescriptorsSound world) {ref : FileRef} :
    world.strong ref = 0 ↔
      ∀ table, LiveTable world table → ∀ id, (world.tableAt table).get id ≠ some ref := by
  have counted := sound.balanced.counted ref
  rw [List.count_nil, Nat.add_zero] at counted
  rw [counted]
  constructor
  · intro none_ table live id isThere
    obtain ⟨process, member, -, isTable⟩ := live
    have known := sound.tablesExist process member
    rw [isTable] at known
    have some_ : 0 < world.slotCount ref :=
      FdWorld.slotCount_pos_iff.mpr ⟨table, id, known, isThere⟩
    omega
  · intro nowhere
    by_contra notZero
    obtain ⟨table, id, -, isThere⟩ := FdWorld.slotCount_pos_iff.mp (Nat.pos_of_ne_zero notZero)
    by_cases live : LiveTable world table
    · exact nowhere table live id isThere
    · rw [sound.deadEmpty table live, FlattenObjects.get_new] at isThere
      cases isThere

private theorem tableOf_eq_of_processes_append {added : List FdProcess}
    (processes : target.processes = world.processes ++ added)
    (old : pid < world.processes.length) :
    tableOf target pid = tableOf world pid := by
  rw [tableOf, processes, List.getElem?_append_left old, tableOf]

private theorem tableOf_eq_of_processes_eq
    {world target : FdWorld} (processes : target.processes = world.processes)
    (pid : Nat) :
    tableOf target pid = tableOf world pid := by
  rw [tableOf, processes, tableOf]

private theorem tableOf_setThreads
    (found : world.processes[pid]? = some process) (threads asked : Nat) :
    tableOf (setThreads world pid process threads) asked =
      tableOf world asked := by
  change ((world.processes.set pid _)[asked]?).map _ = _
  by_cases same : pid = asked
  · subst same
    have inside := (List.getElem?_eq_some_iff.mp found).1
    rw [List.getElem?_set_self inside, tableOf, found]
    rfl
  · rw [List.getElem?_set_ne same, tableOf]

theorem tableOf_next (sound : DescriptorsSound world)
    {action : FdAction} (stepped : FdStep [] world action target)
    {asked : Nat} (old : asked < world.processes.length) :
    tableOf target asked = tableOf world asked := by
  cases stepped with
  | start found =>
      have known := sound.tablesExist _ (List.mem_of_getElem? found)
      exact tableOf_eq_of_processes_append (sound.holding.spawnCopied_spec known).1 old
  | call running leaves =>
      exact tableOf_eq_of_processes_eq leaves.only.processes asked
  | clone running flags env =>
      obtain ⟨-, found, -⟩ := runningProcess_eq_some.mp running
      have known := sound.tablesExist _ (List.mem_of_getElem? found)
      unfold sysClone
      rcases planClone flags env with error | (_ | (_ | _))
      · rfl
      · exact tableOf_setThreads found _ asked
      · exact tableOf_eq_of_processes_append (sound.holding.spawnCopied_spec known).1 old
      · exact tableOf_eq_of_processes_append rfl old
  | @exit pid process running =>
      obtain ⟨-, found, -⟩ := runningProcess_eq_some.mp running
      by_cases last : process.threads = 1
      · have processes := (sound.holding.doExit_last_tables found last).1
        rw [@tableOf_eq_of_processes_eq (setThreads world pid process 0) _ processes asked]
        exact tableOf_setThreads found 0 asked
      · rw [doExit, if_neg last]
        exact tableOf_setThreads found _ asked

theorem close_keeps_other_tables (sound : DescriptorsSound world) {other : Nat} {fd : BitVec 32}
    (stepped : fdNext allocator world (.close pid fd) = some target)
    (apart : tableOf world other ≠ tableOf world pid) :
    seenBy target other = seenBy world other := by
  obtain ⟨process, running, rfl⟩ := Option.map_eq_some_iff.mp stepped
  obtain ⟨-, found, -⟩ := runningProcess_eq_some.mp running
  have known := sound.tablesExist process (List.mem_of_getElem? found)
  have only := (FdWorld.closeFileLike_leaves 0 sound.balanced known fd).only
  rw [seenBy, only.processes, seenBy]
  cases otherFound : world.processes[other]? with
  | none => rfl
  | some owner =>
      have different : owner.table ≠ process.table := by
        intro same
        apply apart
        rw [tableOf, tableOf, otherFound, found, Option.map_some, Option.map_some, same]
      rw [Option.map_some, Option.map_some, only.tableAt_eq different]

theorem clone_copies_table (sound : DescriptorsSound world) {flags : BitVec 32} {env : CloneEnv}
    (plan : planClone flags env = .ok (.process false))
    (stepped : fdNext allocator world (.clone pid flags env) = some target) :
    seenBy target world.processes.length = seenBy world pid ∧
      ∀ other, other < world.processes.length →
        tableOf target other ≠ tableOf target world.processes.length := by
  obtain ⟨process, running, -⟩ := Option.map_eq_some_iff.mp stepped
  obtain ⟨-, found, -⟩ := runningProcess_eq_some.mp running
  have known := sound.tablesExist process (List.mem_of_getElem? found)
  rw [fdNext_clone_copied running plan, Option.some.injEq] at stepped
  subst stepped
  obtain ⟨processes, tables⟩ := sound.holding.spawnCopied_spec known
  have child :
      (spawnCopied world process.table).processes[world.processes.length]? =
        some ⟨world.tables.length, 1⟩ := by
    rw [processes, List.getElem?_concat_length]
  have childTable :
      (spawnCopied world process.table).tables[world.tables.length]? =
        some (world.tableAt process.table) := by
    rw [tables, List.getElem?_concat_length]
  refine ⟨?_, ?_⟩
  · rw [seenBy_of_found child, seenBy_of_found found, FdWorld.tableAt_eq childTable]
  · intro other old same
    rw [tableOf_eq_of_processes_append processes old, tableOf, tableOf,
      child, List.getElem?_eq_getElem old, Option.map_some,
      Option.map_some, Option.some.injEq] at same
    have below := sound.tablesExist _ (List.getElem_mem old)
    rw [same] at below
    exact Nat.lt_irrefl _ below

/-- In every state of every run, an end of a pipe is closed exactly when no
slot of a live table refers to the other end.  A copied table equals the
table it was copied from and belongs to the child alone; which table a
process has never changes; and closing a descriptor changes no table but the
one of the closing process. -/
theorem pipe_closed_iff_unreferenced {allocator : IdAllocator FileRef axFileLimit} {world : FdWorld}
    (reached : (fdMachine allocator).Reachable world) :
    (∀ pipe readable, 0 < world.strong (.pipeEnd pipe readable) →
        (world.closed pipe = true ↔
          ∀ table, LiveTable world table →
            ∀ id, (world.tableAt table).get id ≠ some (.pipeEnd pipe (!readable)))) ∧
      (∀ pid flags env target,
        planClone flags env = .ok (.process false) →
          fdNext allocator world (.clone pid flags env) = some target →
            seenBy target world.processes.length = seenBy world pid ∧
              ∀ other, other < world.processes.length →
                tableOf target other ≠ tableOf target world.processes.length) ∧
      (∀ action target,
        fdNext allocator world action = some target →
          ∀ other, other < world.processes.length → tableOf target other = tableOf world other) ∧
      ∀ pid fd target other,
        fdNext allocator world (.close pid fd) = some target →
          tableOf world other ≠ tableOf world pid → seenBy target other = seenBy world other := by
  have sound := DescriptorsSound.of_reachable reached
  refine ⟨?_, ?_, ?_, ?_⟩
  · intro pipe readable alive
    rw [closed_iff_other_end_dropped sound.balanced alive]
    exact sound.dropped_iff
  · intro pid flags env target plan stepped
    exact clone_copies_table sound plan stepped
  · intro action target stepped other old
    exact tableOf_next sound (sound.fdStep_of_next stepped) old
  · intro pid fd target other stepped apart
    exact close_keeps_other_tables sound stepped apart

theorem stdioSlots_get_of_three_le {id : Nat} (beyond : 3 ≤ id) : stdioSlots.get id = none := by
  rw [stdioSlots, FlattenObjects.get_setSlot _ (by decide),
    FlattenObjects.get_setSlot _ (by decide),
    FlattenObjects.get_setSlot _ (by decide), if_neg (by omega),
    if_neg (by omega), if_neg (by omega), FlattenObjects.get_new]

private theorem exists_pipe_of_room {allocator : IdAllocator FileRef axFileLimit} {world : FdWorld}
    (reached : (fdMachine allocator).Reachable world)
    {pid : Nat} {process : FdProcess}
    (running : runningProcess world pid = some process)
    (slots : world.tables[process.table]? = some stdioSlots) :
    ∃ target, (fdMachine allocator).Reachable target ∧
      ∀ readable, 0 < target.strong (.pipeEnd world.pipes readable) := by
  have stepped :
      fdNext allocator world (.pipe2 pid (.ok ())) =
        some (world.sysPipe2 allocator process.table (.ok ())).2 := by
    rw [fdNext, running, Option.map_some]
  have free : ∀ id, 3 ≤ id → (world.tableAt process.table).get id = none := by
    intro id beyond
    rw [FdWorld.tableAt_eq slots]
    exact stdioSlots_get_of_three_le beyond
  have made := (@FdWorld.sysPipe2_of_free allocator world process.table
      (List.getElem?_eq_some_iff.mp slots).1 3 4 (by decide) (by decide)
      (by decide) (free 3 (by decide)) (free 4 (by decide))).2
  refine ⟨_, reachable_of_next reached stepped, ?_⟩
  intro readable
  rw [made readable]
  exact Nat.one_pos

theorem pipe_closed_iff_unreferenced_newPipe :
    ∃ world pipe,
      (fdMachine (.smallest _ _)).Reachable world ∧ 0 < world.strong (.pipeEnd pipe true) ∧
        (world.closed pipe = true ↔
          ∀ table, LiveTable world table →
            ∀ id, (world.tableAt table).get id ≠ some (.pipeEnd pipe false)) := by
  have slots : (spawnCopied bootWorld 0).tables[1]? = some stdioSlots := by
    rw [firstProcess_spec.2]
    rfl
  obtain ⟨world, reached, alive⟩ :=
    @exists_pipe_of_room (.smallest _ _) _ firstProcess_reachable 1 ⟨1, 1⟩
      firstProcess_running slots
  exact ⟨world, _, reached, alive true,
    (pipe_closed_iff_unreferenced reached).1 _ true (alive true)⟩

end Vegar.Task

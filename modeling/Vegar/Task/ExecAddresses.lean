import Mathlib.Logic.Function.Basic
import Mathlib.Order.Basic
import Vegar.Lib.Machine
import Vegar.Lib.Roster
import Vegar.Task.CloneSignal
import Vegar.Task.Execve

/-!
# User addresses and the replacement of programs

The user addresses that the kernel keeps for a thread: the entries of its
table of signal actions, its alternate stack and `clear_child_tid`.
`sys_execve` replaces the program they point into, and leaves them.  The state
also records when each address was registered and when the contents of each
address space were last replaced.
-/

namespace Vegar.Task

open Vegar.Lib

/-! ## What the kernel keeps -/

structure Kept where
  addr : Nat
  registered : Nat
  deriving DecidableEq, Repr

/-- `axsignal::SignalDisposition`. -/
inductive SignalDisposition where
  | default
  | ignore
  | handler (entry : Nat)
  deriving DecidableEq, Repr

/-- `axsignal::SignalAction`, the part with user addresses. -/
structure SignalAction where
  disposition : SignalDisposition
  restorer : Option Nat
  deriving DecidableEq, Repr

def SignalAction.addresses (action : SignalAction) : List Nat := (match action.disposition with
    | .handler entry => [entry]
    | _ => []) ++ action.restorer.toList

structure ActionEntry where
  action : SignalAction
  registered : Nat
  deriving DecidableEq, Repr

/-- `axsignal::SignalActions`, by the numbers of the signals. -/
abbrev ActionTable := Nat → ActionEntry

/-- `SignalActions::default`. -/
def ActionTable.default : ActionTable := fun _ => ⟨⟨.default, none⟩, 0⟩

/-- `ThreadData`: `clear_child_tid`, and the alternate stack unless it is the
disabled one that every thread starts with. -/
structure AddressThread where
  process : Nat
  alive : Bool
  clearChildTid : Kept
  stack : Option Kept
  deriving DecidableEq, Repr

/-- A process: the allocations of its table of actions and of its address
space, its parent, which may have no `ProcessData`, and the step at which it
last executed a program. -/
structure AddressProcess where
  actions : Nat
  aspace : Nat
  parent : Option (Option Nat)
  execAt : Nat
  deriving DecidableEq, Repr

/-- The threads and processes in the order they start, the tables of actions
and the address spaces by allocation, each of the latter with the step at
which its contents were last replaced, and the number of the step. -/
structure AddressState where
  now : Nat
  tables : Nat → ActionTable
  freshTable : Nat
  images : Nat → Nat
  freshImage : Nat
  processes : List AddressProcess
  threads : List AddressThread

/-! ## The calls -/

/-- The arguments of `sys_rt_sigaction`, with what the user pointers give:
`act` is the action after its conversion, unless the pointer is null. -/
structure SigactionArgs where
  signo : Nat
  act : LinuxResult (Option (LinuxResult SignalAction))
  oldact : LinuxResult Unit
  sigsetsize : Nat

/-- The stack passed to `sys_sigaltstack`, with what `get_as_slice` says of
it. -/
structure StackArgs where
  sp : Nat
  size : Nat
  slice : LinuxResult Unit

/-- The arguments of `sys_sigaltstack`, with what the user pointers give. -/
structure SigaltstackArgs where
  ss : LinuxResult (Option StackArgs)
  oldSs : LinuxResult Unit

structure CloneArgs where
  flags : BitVec 32
  childTid : Nat
  env : CloneEnv

/-- The arguments of `sys_execve`, and the calling task. -/
structure ExecArgs where
  task : ExecTask
  path : Nat
  argv : Nat
  envp : Nat

/-- `parse_signo`. -/
def parseSigno (signo : Nat) : LinuxResult Nat :=
  let number := signo % 256
  if 1 ≤ number ∧ number ≤ 64 then .ok number else .error .EINVAL

def minsigstksz : Nat := 2048

namespace AddressState

def running (state : AddressState) (index : Nat) : Option (AddressThread × AddressProcess) :=
  (state.threads[index]?).bind fun thread =>
    if thread.alive then
      (state.processes[thread.process]?).map fun process =>
        (thread, process)
    else none

def setThread (state : AddressState) (index : Nat) (thread : AddressThread) :
    AddressState :=
  { state with threads := state.threads.set index thread }

def threadCount (state : AddressState) (process : Nat) : Nat :=
  state.threads.countP fun thread => thread.alive && thread.process == process

/-- `sys_rt_sigaction`. -/
def sysRtSigaction (state : AddressState) (process : AddressProcess)
    (args : SigactionArgs) : LinuxResult AddressState := do
  if args.sigsetsize ≠ 8 then throw .EINVAL
  let signo ← parseSigno args.signo
  if signo = sigkill ∨ signo = sigstop then throw .EINVAL
  args.oldact
  match ← args.act with
  | none => return state
  | some converted =>
      let action ← converted
      let table := Function.update (state.tables process.actions) signo ⟨action, state.now⟩
      return { state with
        tables := Function.update state.tables process.actions table }

/-- `sys_sigaltstack`. -/
def sysSigaltstack (state : AddressState) (index : Nat)
    (thread : AddressThread) (args : SigaltstackArgs) :
    LinuxResult AddressState := do
  args.oldSs
  match ← args.ss with
  | none => return state
  | some ss =>
      if ss.size ≤ minsigstksz then throw .ENOMEM
      ss.slice
      return state.setThread index { thread with stack := some ⟨ss.sp, state.now⟩ }

/-- `sys_set_tid_address`. -/
def sysSetTidAddress (state : AddressState) (index : Nat)
    (thread : AddressThread) (clearChildTid : Nat) : AddressState :=
  state.setThread index { thread with clearChildTid := ⟨clearChildTid, state.now⟩ }

/-- `ThreadData::new`, and `set_clear_child_tid` if the flags ask for it. -/
def newThread (state : AddressState) (process : Nat) (args : CloneArgs) : AddressThread where
  process := process
  alive := true
  clearChildTid := ⟨if (cloneFlags args.flags).contains CloneFlags.childCleartid then
      args.childTid else 0, state.now⟩
  stack := none

def sharedTable (state : AddressState) (process : AddressProcess)
    (flags : CloneFlags) : Option Nat :=
  if flags.contains CloneFlags.sighand then
    if flags.contains CloneFlags.parent then
      process.parent.join.bind fun parent =>
        (state.processes[parent]?).map AddressProcess.actions
    else some process.actions
  else none

def withTable (state : AddressState) (shared : Option Nat) :
    Nat × AddressState :=
  match shared with
  | some table => (table, state)
  | none =>
      (state.freshTable,
        { state with
          tables := Function.update state.tables state.freshTable ActionTable.default
          freshTable := state.freshTable + 1 })

def withAspace (state : AddressState) (process : AddressProcess)
    (flags : CloneFlags) : Nat × AddressState :=
  if flags.contains CloneFlags.vm then (process.aspace, state)
  else
    (state.freshImage,
      { state with
        images := Function.update state.images state.freshImage (state.images process.aspace)
        freshImage := state.freshImage + 1 })

/-- `sys_clone` for a new process. -/
def cloneProcess (state : AddressState) (caller : Nat)
    (process : AddressProcess) (args : CloneArgs) : AddressState :=
  let flags := cloneFlags args.flags
  let (actions, state) := state.withTable (state.sharedTable process flags)
  let (aspace, state) := state.withAspace process flags
  let parent :=
    if flags.contains CloneFlags.parent then process.parent
    else some (some caller)
  { state with
    processes := state.processes ++ [⟨actions, aspace, parent, 0⟩]
    threads := state.threads ++ [state.newThread state.processes.length args] }

/-- `sys_clone`. -/
def sysCloneAddresses (state : AddressState) (caller : Nat)
    (process : AddressProcess) (args : CloneArgs) :
    LinuxResult AddressState := do
  match ←
    planClone args.flags { args.env with hasParent := process.parent.isSome }
  with
  | .thread =>
      return { state with
        threads := state.threads ++ [state.newThread caller args] }
  | .process _ => return state.cloneProcess caller process args

def replaceProgram (state : AddressState) (caller : Nat)
    (process : AddressProcess) : AddressState :=
  { state with
    images := Function.update state.images process.aspace state.now
    processes :=
      state.processes.set caller { process with execAt := state.now } }

/-- `thread.exit`, and `process.exit` if it was the last thread: the children
go to the initial process, which has no data. -/
def doExit (state : AddressState) (index : Nat) (thread : AddressThread) :
    AddressState :=
  let exited := state.setThread index { thread with alive := false }
  if exited.threadCount thread.process = 0 then
    { exited with
      processes := exited.processes.map fun process =>
        if process.parent = some (some thread.process) then
          { process with parent := some none }
        else process }
  else exited

/-- `run_user_app`: a process with a table and an address space of its own. -/
def runUserApp (state : AddressState) : AddressState where
  now := state.now
  tables := Function.update state.tables state.freshTable ActionTable.default
  freshTable := state.freshTable + 1
  images := Function.update state.images state.freshImage 0
  freshImage := state.freshImage + 1
  processes := state.processes ++ [⟨state.freshTable, state.freshImage, some none, 0⟩]
  threads := state.threads ++ [⟨state.processes.length, true, ⟨0, state.now⟩, none⟩]

def tick (state : AddressState) : AddressState := { state with now := state.now + 1 }

def settle (state : AddressState) : LinuxResult AddressState → AddressState
  | .ok after => after
  | .error _ => state

end AddressState

inductive AddressAction where
  | runUserApp
  | rtSigaction (index : Nat) (args : SigactionArgs)
  | sigaltstack (index : Nat) (args : SigaltstackArgs)
  | setTidAddress (index clearChildTid : Nat)
  | clone (index : Nat) (args : CloneArgs)
  | execve (index : Nat) (args : ExecArgs)
  | exit (index : Nat)

section Machine

variable (crates : Mm.LoaderCrates) (fuel : Nat)

/-- Whether `sys_execve` succeeds. -/
def ExecArgs.succeeds (args : ExecArgs) : Bool :=
  match (sysExecve crates fuel args.task args.path args.argv args.envp).1
  with
  | .ok _ => true
  | .error _ => false

def addressCall (state : AddressState) : AddressAction → Option AddressState
  | .runUserApp => some state.runUserApp
  | .rtSigaction index args =>
      (state.running index).map fun (_, process) =>
        state.settle (state.sysRtSigaction process args)
  | .sigaltstack index args =>
      (state.running index).map fun (thread, _) =>
        state.settle (state.sysSigaltstack index thread args)
  | .setTidAddress index clearChildTid =>
      (state.running index).map fun (thread, _) =>
        state.sysSetTidAddress index thread clearChildTid
  | .clone index args =>
      (state.running index).map fun (thread, process) =>
        state.settle (state.sysCloneAddresses thread.process process args)
  | .execve index args =>
      (state.running index).bind fun (thread, process) =>
        if args.task.threads = state.threadCount thread.process then
          if args.succeeds crates fuel then
            some (state.replaceProgram thread.process process)
          else some state
        else none
  | .exit index =>
      (state.running index).map fun (thread, _) => state.doExit index thread

def addressMachine : Machine AddressState AddressAction where
  start state := state = ⟨0, fun _ => .default, 0, fun _ => 0, 0, [], []⟩
  next state := addressCall crates fuel state.tick

end Machine

theorem signalActions_eq_withTable
    (state : AddressState) (process : AddressProcess) (flags : CloneFlags)
    {caller : SignalCaller ActionTable}
    (sameTables : caller.tables = state.tables)
    (sameFresh : caller.fresh = state.freshTable)
    (sameActions : caller.actions = process.actions)
    (sameParent : caller.parent.join = process.parent.join.bind fun parent =>
          (state.processes[parent]?).map AddressProcess.actions) :
    signalActions ActionTable.default flags caller =
      ((state.withTable (state.sharedTable process flags)).1,
        (state.withTable (state.sharedTable process flags)).2.tables) := by
  have isDefault :
      arcDefault ActionTable.default caller =
        ((state.withTable none).1, (state.withTable none).2.tables) := by
    rw [arcDefault, AddressState.withTable, sameFresh, sameTables]
    refine Prod.ext rfl ?_
    funext table
    exact (Function.update_apply _ _ _ table).symm
  unfold signalActions AddressState.sharedTable
  split
  · rw [sameActions, sameParent]
    split
    · cases process.parent.join.bind fun parent =>
          (state.processes[parent]?).map AddressProcess.actions with
      | none => exact isDefault
      | some table => exact Prod.ext rfl sameTables
    · exact Prod.ext rfl sameTables
  · exact isDefault

/-! ## What is claimed of the addresses -/

inductive KeepsAddress (tables : Nat → ActionTable) (thread : AddressThread)
    (process : AddressProcess) : Kept → Prop
  | clearChildTid (isSet : thread.clearChildTid.addr ≠ 0) :
      KeepsAddress tables thread process thread.clearChildTid
  | stack {kept : Kept} (isSet : thread.stack = some kept) : KeepsAddress tables thread process kept
  | action (signo : Nat) {addr : Nat}
      (member : addr ∈ (tables process.actions signo).action.addresses) :
      KeepsAddress tables thread process ⟨addr, (tables process.actions signo).registered⟩

/-- The word that `do_exit` clears, where `get_as_mut` gives it; it never
gives a word at the null address. -/
def exitClears (thread : AddressThread) (access : LinuxResult Unit) :
    Option Kept :=
  match access with
  | .ok () =>
      if thread.clearChildTid.addr = 0 then none
      else some thread.clearChildTid
  | .error _ => none

def deliveryUses (tables : Nat → ActionTable) (thread : AddressThread)
    (process : AddressProcess) (signo : Nat) : List Kept :=
  let entry := tables process.actions signo
  match entry.action.disposition with
  | .handler _ =>
      entry.action.addresses.map (fun addr => ⟨addr, entry.registered⟩) ++ thread.stack.toList
  | _ => []

/-- The addresses kept for a thread were registered after its process last
executed a program, and neither `do_exit` nor a delivery uses one from before
the contents of the address space were replaced. -/
structure NoStaleAddress (state : AddressState) : Prop where
  kept :
    ∀ index thread process, state.running index = some (thread, process) →
      ∀ kept, KeepsAddress state.tables thread process kept → process.execAt < kept.registered
  exit :
    ∀ index thread process, state.running index = some (thread, process) →
      ∀ access kept, exitClears thread access = some kept →
        state.images process.aspace < kept.registered
  delivery :
    ∀ index thread process, state.running index = some (thread, process) →
      ∀ signo, ∀ kept ∈ deliveryUses state.tables thread process signo,
        state.images process.aspace < kept.registered

/-- A program is executed only while no address is kept for a thread that uses
the address space, and a new process shares the table of its caller's parent
only if that has no entry from before the caller's program. -/
def ExecutesClean (crates : Mm.LoaderCrates) (fuel : Nat)
    (state : AddressState) : AddressAction → Prop
  | .execve index args =>
      args.succeeds crates fuel = true →
      ∀ thread process, state.running index = some (thread, process) →
        ∀ other otherThread otherProcess, state.running other = some (otherThread, otherProcess) →
          otherProcess.aspace = process.aspace →
          ∀ kept, ¬ KeepsAddress state.tables otherThread otherProcess kept
  | .clone index args =>
      (cloneFlags args.flags).contains CloneFlags.thread = false →
      (cloneFlags args.flags).contains CloneFlags.parent = true →
      ∀ thread process, state.running index = some (thread, process) →
        ∀ table, state.sharedTable process (cloneFlags args.flags) = some table →
          ∀ signo, (state.tables table signo).action.addresses ≠ [] →
            state.images process.aspace < (state.tables table signo).registered
  | _ => True

/-! ## The invariant -/

structure AddressInvariant (state : AddressState) : Prop where
  tablesHeld : ∀ process ∈ state.processes, process.actions < state.freshTable
  imagesHeld : ∀ process ∈ state.processes, process.aspace < state.freshImage
  placed : ∀ thread ∈ state.threads, thread.process < state.processes.length
  imagesPast : ∀ image, state.images image ≤ state.now
  execPast : ∀ process ∈ state.processes, process.execAt ≤ state.images process.aspace
  fresh :
    ∀ index thread process, state.running index = some (thread, process) →
      ∀ kept, KeepsAddress state.tables thread process kept →
        state.images process.aspace < kept.registered

variable {thread : AddressThread} {process : AddressProcess}

theorem KeepsAddress.congr {tables before : Nat → ActionTable}
    {other : AddressProcess} {kept : Kept}
    (keeps : KeepsAddress tables thread process kept)
    (same : tables process.actions = before other.actions) :
    KeepsAddress before thread other kept := by
  cases keeps with
  | clearChildTid isSet => exact .clearChildTid isSet
  | stack isSet => exact .stack isSet
  | action signo member =>
      rw [same] at member ⊢
      exact .action signo member

variable {table : Nat}

theorem KeepsAddress.of_setAction {tables : Nat → ActionTable} {kept : Kept} {signo now : Nat}
    {action : SignalAction}
    (keeps :
      KeepsAddress
        (Function.update tables table (Function.update (tables table) signo ⟨action, now⟩))
        thread process kept) :
    KeepsAddress tables thread process kept ∨ kept.registered = now := by
  by_cases sameTable : process.actions = table
  · cases keeps with
    | clearChildTid isSet => exact Or.inl (.clearChildTid isSet)
    | stack isSet => exact Or.inl (.stack isSet)
    | action asked member =>
        subst sameTable
        rw [Function.update_self] at member ⊢
        by_cases sameSigno : asked = signo
        · subst sameSigno
          rw [Function.update_self]
          exact Or.inr rfl
        · rw [Function.update_of_ne sameSigno] at member ⊢
          exact Or.inl (.action asked member)
  · exact Or.inl (keeps.congr (Function.update_of_ne sameTable _ _))

variable {index : Nat}

theorem AddressState.running_eq_some {state : AddressState} :
    state.running index = some (thread, process) ↔
      state.threads[index]? = some thread ∧ thread.alive = true ∧
        state.processes[thread.process]? = some process := by
  unfold running
  cases found : state.threads[index]? with
  | none => simp
  | some stored =>
      rw [Option.bind_some]
      constructor
      · intro isRunning
        split at isRunning
        · next alive =>
            obtain ⟨owner, isOwner, same⟩ := Option.map_eq_some_iff.mp isRunning
            obtain ⟨rfl, rfl⟩ := Prod.mk.inj same
            exact ⟨rfl, alive, isOwner⟩
        · cases isRunning
      · rintro ⟨same, alive, isOwner⟩
        obtain rfl := Option.some.inj same
        rw [if_pos alive, isOwner, Option.map_some]

namespace AddressInvariant

variable {state : AddressState}

theorem noStaleAddress (holds : AddressInvariant state) : NoStaleAddress state where
  kept index thread process isRunning kept keeps := by
    obtain ⟨-, -, owner⟩ := AddressState.running_eq_some.mp isRunning
    have executed := holds.execPast process (List.mem_of_getElem? owner)
    have isFresh := holds.fresh index thread process isRunning kept keeps
    omega
  exit index thread process isRunning access kept clears := by
    apply holds.fresh index thread process isRunning kept
    unfold exitClears at clears
    split at clears
    · split at clears
      · cases clears
      · next isSet =>
          obtain rfl := Option.some.inj clears
          exact .clearChildTid isSet
    · cases clears
  delivery index thread process isRunning signo kept member := by
    apply holds.fresh index thread process isRunning kept
    unfold deliveryUses at member
    dsimp only at member
    split at member
    · rcases List.mem_append.mp member with isEntry | isStack
      · obtain ⟨addr, addrMember, rfl⟩ := List.mem_map.mp isEntry
        exact .action signo addrMember
      · exact .stack (Option.mem_toList.mp isStack)
    · cases member

theorem tick (holds : AddressInvariant state) :
    AddressInvariant state.tick ∧ ∀ image, state.tick.images image < state.tick.now := by
  have past : ∀ image, state.tick.images image < state.tick.now := by
    intro image
    exact Nat.lt_succ_of_le (holds.imagesPast image)
  exact ⟨⟨holds.tablesHeld, holds.imagesHeld, holds.placed,
      fun image => Nat.le_of_lt (past image), holds.execPast, holds.fresh⟩,
      past⟩

theorem setAction (holds : AddressInvariant state) (past : ∀ image, state.images image < state.now)
    (table signo : Nat) (action : SignalAction) :
    AddressInvariant
      { state with
        tables := Function.update state.tables table
            (Function.update (state.tables table) signo ⟨action, state.now⟩) } := by
  refine ⟨holds.tablesHeld, holds.imagesHeld, holds.placed, holds.imagesPast, holds.execPast, ?_⟩
  intro index thread process isRunning kept keeps
  rcases keeps.of_setAction with before | isNow
  · exact holds.fresh index thread process isRunning kept before
  · rw [isNow]
    exact past process.aspace

theorem setThread (holds : AddressInvariant state) (past : ∀ image, state.images image < state.now)
    {after : AddressThread}
    (isRunning : state.running index = some (thread, process))
    (sameProcess : after.process = thread.process)
    (kept :
      ∀ kept, after.alive = true → KeepsAddress state.tables after process kept →
        KeepsAddress state.tables thread process kept ∨ kept.registered = state.now) :
    AddressInvariant (state.setThread index after) := by
  obtain ⟨found, alive, owner⟩ := AddressState.running_eq_some.mp isRunning
  refine ⟨holds.tablesHeld, holds.imagesHeld, ?_, holds.imagesPast, holds.execPast, ?_⟩
  · apply Roster.forall_mem_set holds.placed
    rw [sameProcess]
    exact holds.placed thread (List.mem_of_getElem? found)
  · intro asked other otherProcess otherRunning otherKept keeps
    obtain ⟨otherFound, otherAlive, otherOwner⟩ := AddressState.running_eq_some.mp otherRunning
    change (state.threads.set index after)[asked]? = some other at otherFound
    change state.processes[other.process]? = some otherProcess at otherOwner
    rcases Roster.replaced_or_same otherFound with ⟨rfl, rfl⟩ | ⟨-, before⟩
    · rw [sameProcess, owner] at otherOwner
      obtain rfl := Option.some.inj otherOwner
      rcases kept otherKept otherAlive keeps with wasKept | isNow
      · exact holds.fresh asked thread process isRunning otherKept wasKept
      · rw [isNow]
        exact past process.aspace
    · exact holds.fresh asked other otherProcess
          (AddressState.running_eq_some.mpr ⟨before, otherAlive, otherOwner⟩)
          otherKept keeps

theorem addThread (holds : AddressInvariant state) {thread : AddressThread}
    {process : AddressProcess}
    (owner : state.processes[thread.process]? = some process)
    (kept :
      ∀ kept, KeepsAddress state.tables thread process kept →
        state.images process.aspace < kept.registered) :
    AddressInvariant { state with threads := state.threads ++ [thread] } := by
  refine ⟨holds.tablesHeld, holds.imagesHeld, ?_, holds.imagesPast, holds.execPast, ?_⟩
  · exact Roster.forall_mem_concat holds.placed (List.getElem?_eq_some_iff.mp owner).1
  · intro asked other otherProcess otherRunning otherKept keeps
    obtain ⟨otherFound, otherAlive, otherOwner⟩ := AddressState.running_eq_some.mp otherRunning
    rcases Roster.old_or_added otherFound with old | ⟨-, rfl⟩
    · exact holds.fresh asked other otherProcess
          (AddressState.running_eq_some.mpr ⟨old, otherAlive, otherOwner⟩)
          otherKept keeps
    · obtain rfl := Option.some.inj (owner.symm.trans otherOwner)
      exact kept otherKept keeps

theorem addProcess (holds : AddressInvariant state) (tableHeld : process.actions < state.freshTable)
    (imageHeld : process.aspace < state.freshImage)
    (executed : process.execAt ≤ state.images process.aspace) :
    AddressInvariant { state with processes := state.processes ++ [process] } where
  tablesHeld := Roster.forall_mem_concat holds.tablesHeld tableHeld
  imagesHeld := Roster.forall_mem_concat holds.imagesHeld imageHeld
  placed thread member := by
    have before := holds.placed thread member
    rw [List.length_append]
    omega
  imagesPast := holds.imagesPast
  execPast := Roster.forall_mem_concat holds.execPast executed
  fresh index thread owner isRunning kept keeps := by
    obtain ⟨found, alive, isOwner⟩ := AddressState.running_eq_some.mp isRunning
    have placed := holds.placed thread (List.mem_of_getElem? found)
    change (state.processes ++ [process])[thread.process]? = some owner at isOwner
    rw [List.getElem?_append_left placed] at isOwner
    exact holds.fresh index thread owner
        (AddressState.running_eq_some.mpr ⟨found, alive, isOwner⟩) kept keeps

theorem addProcessThread (holds : AddressInvariant state) {process : AddressProcess}
    {thread : AddressThread}
    (tableHeld : process.actions < state.freshTable)
    (imageHeld : process.aspace < state.freshImage)
    (executed : process.execAt ≤ state.images process.aspace)
    (first : thread.process = state.processes.length)
    (kept :
      ∀ kept, KeepsAddress state.tables thread process kept →
        state.images process.aspace < kept.registered) :
    AddressInvariant
      { state with
        processes := state.processes ++ [process]
        threads := state.threads ++ [thread] } := by
  have withProcess := holds.addProcess tableHeld imageHeld executed
  apply withProcess.addThread _ kept
  rw [first]
  exact List.getElem?_concat_length

theorem newTable (holds : AddressInvariant state) (table : ActionTable) :
    AddressInvariant
      { state with
        tables := Function.update state.tables state.freshTable table
        freshTable := state.freshTable + 1 } := by
  refine ⟨fun process member =>
        Nat.lt_succ_of_lt (holds.tablesHeld process member),
      holds.imagesHeld, holds.placed, holds.imagesPast, holds.execPast, ?_⟩
  intro index thread process isRunning kept keeps
  obtain ⟨-, -, owner⟩ := AddressState.running_eq_some.mp isRunning
  have held := holds.tablesHeld process (List.mem_of_getElem? owner)
  apply holds.fresh index thread process isRunning kept
  exact keeps.congr (Function.update_of_ne (Nat.ne_of_lt held) _ _)

theorem newImage (holds : AddressInvariant state) {time : Nat} (past : time ≤ state.now) :
    AddressInvariant
      { state with
        images := Function.update state.images state.freshImage time
        freshImage := state.freshImage + 1 } := by
  have kept (process : AddressProcess) (member : process ∈ state.processes) :
      Function.update state.images state.freshImage time process.aspace =
        state.images process.aspace :=
    Function.update_of_ne (Nat.ne_of_lt (holds.imagesHeld process member)) _ _
  refine ⟨holds.tablesHeld, fun process member =>
        Nat.lt_succ_of_lt (holds.imagesHeld process member),
      holds.placed, ?_, ?_, ?_⟩
  · exact update_le_iff.mpr ⟨past, fun image _ => holds.imagesPast image⟩
  · intro process member
    change process.execAt ≤ Function.update state.images state.freshImage time process.aspace
    rw [kept process member]
    exact holds.execPast process member
  · intro index thread process isRunning otherKept
    obtain ⟨-, -, owner⟩ := AddressState.running_eq_some.mp isRunning
    change
      _ → Function.update state.images state.freshImage time process.aspace < otherKept.registered
    rw [kept process (List.mem_of_getElem? owner)]
    exact holds.fresh index thread process isRunning otherKept

theorem mapProcesses (holds : AddressInvariant state) {change : AddressProcess → AddressProcess}
    (sameActions : ∀ process, (change process).actions = process.actions)
    (sameAspace : ∀ process, (change process).aspace = process.aspace)
    (sameExec : ∀ process, (change process).execAt = process.execAt) :
    AddressInvariant { state with processes := state.processes.map change } where
  tablesHeld process member := by
    obtain ⟨before, isBefore, rfl⟩ := List.mem_map.mp member
    rw [sameActions]
    exact holds.tablesHeld before isBefore
  imagesHeld process member := by
    obtain ⟨before, isBefore, rfl⟩ := List.mem_map.mp member
    rw [sameAspace]
    exact holds.imagesHeld before isBefore
  placed thread member := by
    rw [List.length_map]
    exact holds.placed thread member
  imagesPast := holds.imagesPast
  execPast process member := by
    obtain ⟨before, isBefore, rfl⟩ := List.mem_map.mp member
    rw [sameExec, sameAspace]
    exact holds.execPast before isBefore
  fresh index thread process isRunning kept keeps := by
    obtain ⟨found, alive, owner⟩ := AddressState.running_eq_some.mp isRunning
    rw [List.getElem?_map] at owner
    obtain ⟨before, isBefore, rfl⟩ := Option.map_eq_some_iff.mp owner
    have stillKept : KeepsAddress state.tables thread before kept :=
      keeps.congr (by rw [sameActions])
    have isFresh := holds.fresh index thread before
        (AddressState.running_eq_some.mpr ⟨found, alive, isBefore⟩) kept
        stillKept
    rw [sameAspace]
    exact isFresh

theorem doExit (holds : AddressInvariant state) (past : ∀ image, state.images image < state.now)
    (isRunning : state.running index = some (thread, process)) :
    AddressInvariant (state.doExit index thread) := by
  have exited : AddressInvariant (state.setThread index { thread with alive := false }) :=
    holds.setThread past isRunning rfl fun _ alive => by cases alive
  unfold AddressState.doExit
  dsimp only
  split
  · apply exited.mapProcesses
    · intro other
      split <;> rfl
    · intro other
      split <;> rfl
    · intro other
      split <;> rfl
  · exact exited

theorem replaceProgram (holds : AddressInvariant state)
    (isRunning : state.running index = some (thread, process))
    (clean :
      ∀ other otherThread otherProcess, state.running other = some (otherThread, otherProcess) →
        otherProcess.aspace = process.aspace →
        ∀ kept, ¬ KeepsAddress state.tables otherThread otherProcess kept) :
    AddressInvariant (state.replaceProgram thread.process process) := by
  obtain ⟨-, -, owner⟩ := AddressState.running_eq_some.mp isRunning
  have member := List.mem_of_getElem? owner
  have imagesLe :
      state.images ≤
        Function.update state.images process.aspace state.now :=
    le_update_iff.mpr ⟨holds.imagesPast process.aspace, fun image _ => le_refl _⟩
  refine ⟨?_, ?_, ?_, ?_, ?_, ?_⟩
  · exact Roster.forall_mem_set holds.tablesHeld (holds.tablesHeld process member)
  · exact Roster.forall_mem_set holds.imagesHeld (holds.imagesHeld process member)
  · intro other otherMember
    change other.process < (state.processes.set _ _).length
    rw [List.length_set]
    exact holds.placed other otherMember
  · exact update_le_iff.mpr ⟨le_refl _, fun image _ => holds.imagesPast image⟩
  · apply Roster.forall_mem_set
    · intro other old
      exact Nat.le_trans (holds.execPast other old) (imagesLe other.aspace)
    · change state.now ≤ Function.update state.images process.aspace state.now process.aspace
      rw [Function.update_self]
  · intro asked other otherProcess otherRunning kept keeps
    obtain ⟨found, alive, isOwner⟩ := AddressState.running_eq_some.mp otherRunning
    obtain ⟨before, isBefore, sameActions, sameAspace⟩ :
        ∃ before, state.processes[other.process]? = some before ∧
          before.actions = otherProcess.actions ∧
          before.aspace = otherProcess.aspace := by
      change (state.processes.set _ _)[other.process]? = some otherProcess at isOwner
      rcases Roster.replaced_or_same isOwner with ⟨same, rfl⟩ | ⟨-, wasOwner⟩
      · rw [← same] at owner
        exact ⟨process, owner, rfl, rfl⟩
      · exact ⟨otherProcess, wasOwner, rfl, rfl⟩
    have wasRunning : state.running asked = some (other, before) :=
      AddressState.running_eq_some.mpr ⟨found, alive, isBefore⟩
    have wasKept : KeepsAddress state.tables other before kept :=
      keeps.congr (by rw [sameActions]; rfl)
    have elsewhere : otherProcess.aspace ≠ process.aspace := by
      intro same
      exact clean asked other before wasRunning (sameAspace.trans same) kept wasKept
    change
      Function.update state.images process.aspace state.now otherProcess.aspace < kept.registered
    rw [Function.update_of_ne elsewhere, ← sameAspace]
    exact holds.fresh asked other before wasRunning kept wasKept

theorem withTable (holds : AddressInvariant state) {shared : Option Nat}
    (held : ∀ table, shared = some table → table < state.freshTable) :
    let made := state.withTable shared
    AddressInvariant made.2 ∧ made.1 < made.2.freshTable ∧
      made.2.processes = state.processes ∧ made.2.threads = state.threads ∧
      made.2.images = state.images ∧ made.2.now = state.now ∧
      ∀ signo, (made.2.tables made.1 signo).action.addresses ≠ [] →
        shared = some made.1 ∧ made.2.tables made.1 signo = state.tables made.1 signo := by
  cases shared with
  | some table =>
      exact ⟨holds, held table rfl, rfl, rfl, rfl, rfl, fun _ _ => ⟨rfl, rfl⟩⟩
  | none =>
      refine ⟨holds.newTable _, Nat.lt_succ_self _, rfl, rfl, rfl, rfl, ?_⟩
      intro signo some_
      apply absurd _ some_
      change
        (Function.update state.tables state.freshTable ActionTable.default
          state.freshTable signo).action.addresses = []
      rw [Function.update_self]
      rfl

theorem withAspace (holds : AddressInvariant state)
    (member : process ∈ state.processes) (flags : CloneFlags) :
    let made := state.withAspace process flags
    AddressInvariant made.2 ∧ made.1 < made.2.freshImage ∧
      made.2.processes = state.processes ∧ made.2.threads = state.threads ∧
      made.2.tables = state.tables ∧ made.2.freshTable = state.freshTable ∧
      made.2.now = state.now ∧
      made.2.images made.1 = state.images process.aspace := by
  unfold AddressState.withAspace
  split
  · exact ⟨holds, holds.imagesHeld process member, rfl, rfl, rfl, rfl, rfl, rfl⟩
  · refine ⟨holds.newImage (holds.imagesPast process.aspace), Nat.lt_succ_self _,
        rfl, rfl, rfl, rfl, rfl, ?_⟩
    exact Function.update_self _ _ _

theorem registered_of_newThread {tables : Nat → ActionTable} {owner : Nat} {args : CloneArgs}
    {kept : Kept}
    (keeps : KeepsAddress tables (state.newThread owner args) process kept) :
    kept.registered = state.now ∨
      ∃ signo, (tables process.actions signo).action.addresses ≠ [] ∧
        kept.registered = (tables process.actions signo).registered := by
  cases keeps with
  | clearChildTid isSet => exact Or.inl rfl
  | stack isSet => cases isSet
  | action signo member =>
      exact Or.inr ⟨signo, List.ne_nil_of_mem member, rfl⟩

theorem fresh_entry (holds : AddressInvariant state)
    (isRunning : state.running index = some (thread, process)) {signo : Nat}
    (used : (state.tables process.actions signo).action.addresses ≠ []) :
    state.images process.aspace < (state.tables process.actions signo).registered := by
  obtain ⟨addr, member⟩ := List.exists_mem_of_ne_nil _ used
  exact holds.fresh index thread process isRunning _ (.action signo member)

theorem sharedTable_held (holds : AddressInvariant state)
    (member : process ∈ state.processes) {flags : CloneFlags}
    (shared : state.sharedTable process flags = some table) :
    table < state.freshTable := by
  unfold AddressState.sharedTable at shared
  split at shared
  · split at shared
    · obtain ⟨parent, -, found⟩ := Option.bind_eq_some_iff.mp shared
      obtain ⟨parentProcess, isParent, rfl⟩ := Option.map_eq_some_iff.mp found
      exact holds.tablesHeld parentProcess (List.mem_of_getElem? isParent)
    · obtain rfl := Option.some.inj shared
      exact holds.tablesHeld process member
  · cases shared

theorem sharedTable_eq_actions {flags : CloneFlags}
    (asChild : flags.contains CloneFlags.parent = false)
    (shared : state.sharedTable process flags = some table) :
    table = process.actions := by
  unfold AddressState.sharedTable at shared
  split at shared
  · rw [if_neg (by rw [asChild]; decide)] at shared
    exact (Option.some.inj shared).symm
  · cases shared

theorem fresh_shared_entry (holds : AddressInvariant state)
    (isRunning : state.running index = some (thread, process))
    {flags : CloneFlags}
    (clean : flags.contains CloneFlags.parent = true →
      ∀ table, state.sharedTable process flags = some table →
        ∀ signo, (state.tables table signo).action.addresses ≠ [] →
          state.images process.aspace < (state.tables table signo).registered)
    (shared : state.sharedTable process flags = some table)
    {signo : Nat}
    (used : (state.tables table signo).action.addresses ≠ []) :
    state.images process.aspace < (state.tables table signo).registered := by
  cases asParent : flags.contains CloneFlags.parent with
  | true => exact clean asParent table shared signo used
  | false =>
      obtain rfl := sharedTable_eq_actions asParent shared
      exact holds.fresh_entry isRunning used

theorem runUserApp (holds : AddressInvariant state) :
    AddressInvariant state.runUserApp := by
  have extended := (holds.newTable ActionTable.default).newImage (Nat.zero_le _)
  let process : AddressProcess := ⟨state.freshTable, state.freshImage, some none, 0⟩
  refine @addProcessThread _ extended process ⟨state.processes.length, true, ⟨0, state.now⟩, none⟩
      (Nat.lt_succ_self _) (Nat.lt_succ_self _) (Nat.zero_le _) rfl ?_
  intro kept keeps
  cases keeps with
  | clearChildTid isSet => exact absurd rfl isSet
  | stack isSet => cases isSet
  | action signo member =>
      change
        _ ∈ (Function.update state.tables state.freshTable
          ActionTable.default state.freshTable signo).action.addresses
        at member
      rw [Function.update_self] at member
      cases member

theorem sysRtSigaction (holds : AddressInvariant state)
    (past : ∀ image, state.images image < state.now)
    {args : SigactionArgs} {after : AddressState}
    (succeeded : state.sysRtSigaction process args = .ok after) :
    AddressInvariant after := by
  unfold AddressState.sysRtSigaction at succeeded
  obtain ⟨-, succeeded⟩ := ok_of_check succeeded
  obtain ⟨signo, -, succeeded⟩ := bind_eq_ok_iff.mp succeeded
  obtain ⟨-, succeeded⟩ := ok_of_check succeeded
  obtain ⟨-, -, succeeded⟩ := bind_eq_ok_iff.mp succeeded
  obtain ⟨act, -, succeeded⟩ := bind_eq_ok_iff.mp succeeded
  cases act with
  | none =>
      obtain rfl := Except.ok.inj succeeded
      exact holds
  | some converted =>
      obtain ⟨action, -, succeeded⟩ := bind_eq_ok_iff.mp succeeded
      obtain rfl := Except.ok.inj succeeded
      exact holds.setAction past process.actions signo action

section Running

variable {index : Nat} {thread : AddressThread} {process : AddressProcess}
  (holds : AddressInvariant state)
  (past : ∀ image, state.images image < state.now)
  (isRunning : state.running index = some (thread, process))

include holds past isRunning

theorem cloneProcess {args : CloneArgs}
    (clean : (cloneFlags args.flags).contains CloneFlags.parent = true →
      ∀ table, state.sharedTable process (cloneFlags args.flags) = some table →
        ∀ signo, (state.tables table signo).action.addresses ≠ [] →
          state.images process.aspace < (state.tables table signo).registered) :
    AddressInvariant (state.cloneProcess thread.process process args) := by
  let flags := cloneFlags args.flags
  obtain ⟨-, -, owner⟩ := AddressState.running_eq_some.mp isRunning
  have member := List.mem_of_getElem? owner
  let tabled := state.withTable (state.sharedTable process flags)
  obtain ⟨tabledHolds, tableHeld, tabledProcesses, tabledThreads,
      tabledImages, tabledNow, entries⟩ :=
    holds.withTable fun table => holds.sharedTable_held member
  have tabledMember : process ∈ tabled.2.processes := by
    rw [tabledProcesses]
    exact member
  let spaced := tabled.2.withAspace process flags
  obtain ⟨spacedHolds, imageHeld, spacedProcesses, spacedThreads,
      spacedTables, spacedFresh, spacedNow, spacedImage⟩ :=
    tabledHolds.withAspace tabledMember flags
  have sameImage : spaced.2.images spaced.1 = state.images process.aspace := by
    rw [spacedImage, tabledImages]
  let child : AddressProcess := ⟨tabled.1, spaced.1,
      if flags.contains CloneFlags.parent then process.parent
      else some (some thread.process), 0⟩
  have childTable : child.actions < spaced.2.freshTable := by
    rw [spacedFresh]
    exact tableHeld
  have cloned :
      state.cloneProcess thread.process process args =
        { spaced.2 with
          processes := spaced.2.processes ++ [child]
          threads :=
            spaced.2.threads ++ [spaced.2.newThread spaced.2.processes.length args] } := rfl
  rw [cloned]
  apply spacedHolds.addProcessThread childTable imageHeld (Nat.zero_le _) rfl
  intro kept keeps
  change spaced.2.images spaced.1 < kept.registered
  rw [sameImage]
  rcases registered_of_newThread keeps with isNow | ⟨signo, used, isEntry⟩
  · rw [isNow, spacedNow, tabledNow]
    exact past process.aspace
  · change (spaced.2.tables tabled.1 signo).action.addresses ≠ [] at used
    change kept.registered = (spaced.2.tables tabled.1 signo).registered at isEntry
    rw [spacedTables] at used isEntry
    obtain ⟨shared, sameEntry⟩ := entries signo used
    change tabled.2.tables tabled.1 signo = _ at sameEntry
    rw [sameEntry] at used isEntry
    rw [isEntry]
    exact holds.fresh_shared_entry isRunning clean shared used

theorem sysSigaltstack {args : SigaltstackArgs} {after : AddressState}
    (succeeded : state.sysSigaltstack index thread args = .ok after) :
    AddressInvariant after := by
  unfold AddressState.sysSigaltstack at succeeded
  obtain ⟨-, -, succeeded⟩ := bind_eq_ok_iff.mp succeeded
  obtain ⟨ss, -, succeeded⟩ := bind_eq_ok_iff.mp succeeded
  cases ss with
  | none =>
      obtain rfl := Except.ok.inj succeeded
      exact holds
  | some ss =>
      obtain ⟨-, succeeded⟩ := ok_of_check succeeded
      obtain ⟨-, -, succeeded⟩ := bind_eq_ok_iff.mp succeeded
      obtain rfl := Except.ok.inj succeeded
      refine holds.setThread past isRunning rfl ?_
      intro kept _ keeps
      cases keeps with
      | clearChildTid isSet => exact Or.inl (.clearChildTid isSet)
      | stack isSet =>
          obtain rfl := Option.some.inj isSet
          exact Or.inr rfl
      | action signo member => exact Or.inl (.action signo member)

theorem sysSetTidAddress (clearChildTid : Nat) :
    AddressInvariant (state.sysSetTidAddress index thread clearChildTid) := by
  refine holds.setThread past isRunning rfl ?_
  intro kept _ keeps
  cases keeps with
  | clearChildTid isSet => exact Or.inr rfl
  | stack isSet => exact Or.inl (.stack isSet)
  | action signo member => exact Or.inl (.action signo member)

theorem sysCloneAddresses {args : CloneArgs}
    (clean : (cloneFlags args.flags).contains CloneFlags.thread = false →
      (cloneFlags args.flags).contains CloneFlags.parent = true →
      ∀ table, state.sharedTable process (cloneFlags args.flags) = some table →
        ∀ signo, (state.tables table signo).action.addresses ≠ [] →
          state.images process.aspace < (state.tables table signo).registered)
    {after : AddressState}
    (succeeded : state.sysCloneAddresses thread.process process args = .ok after) :
    AddressInvariant after := by
  unfold AddressState.sysCloneAddresses at succeeded
  obtain ⟨plan, planned, succeeded⟩ := bind_eq_ok_iff.mp succeeded
  have decided := planClone_eq_ok planned
  cases plan with
  | thread =>
      obtain rfl := Except.ok.inj succeeded
      obtain ⟨-, -, owner⟩ := AddressState.running_eq_some.mp isRunning
      refine @addThread _ holds (state.newThread thread.process args) process owner ?_
      intro kept keeps
      rcases registered_of_newThread keeps with isNow | ⟨signo, used, isEntry⟩
      · rw [isNow]
        exact past process.aspace
      · rw [isEntry]
        exact holds.fresh_entry isRunning used
  | process sharesFiles =>
      obtain rfl := Except.ok.inj succeeded
      have notThread : (cloneFlags args.flags).contains CloneFlags.thread = false := by
        by_contra isThread
        rw [if_pos (Bool.not_eq_false _ ▸ isThread)] at decided
        cases decided
      exact holds.cloneProcess past isRunning (clean notThread)

end Running

theorem settle (holds : AddressInvariant state) {result : LinuxResult AddressState}
    (succeeds : ∀ after, result = .ok after → AddressInvariant after) :
    AddressInvariant (state.settle result) := by
  cases result with
  | error error => exact holds
  | ok after => exact succeeds after rfl

theorem call {crates : Mm.LoaderCrates} {fuel : Nat} {action : AddressAction}
    {target : AddressState} (holds : AddressInvariant state)
    (past : ∀ image, state.images image < state.now)
    (clean : ExecutesClean crates fuel state action)
    (called : addressCall crates fuel state action = some target) :
    AddressInvariant target := by
  cases action with
  | runUserApp =>
      obtain rfl := Option.some.inj called
      exact holds.runUserApp
  | rtSigaction index args =>
      obtain ⟨⟨thread, process⟩, isRunning, rfl⟩ := Option.map_eq_some_iff.mp called
      exact holds.settle fun after => holds.sysRtSigaction past
  | sigaltstack index args =>
      obtain ⟨⟨thread, process⟩, isRunning, rfl⟩ := Option.map_eq_some_iff.mp called
      exact holds.settle fun after => holds.sysSigaltstack past isRunning
  | setTidAddress index clearChildTid =>
      obtain ⟨⟨thread, process⟩, isRunning, rfl⟩ := Option.map_eq_some_iff.mp called
      exact holds.sysSetTidAddress past isRunning clearChildTid
  | clone index args =>
      obtain ⟨⟨thread, process⟩, isRunning, rfl⟩ := Option.map_eq_some_iff.mp called
      exact holds.settle fun after =>
          holds.sysCloneAddresses past isRunning fun notThread asParent =>
            clean notThread asParent thread process isRunning
  | execve index args =>
      obtain ⟨⟨thread, process⟩, isRunning, executed⟩ := Option.bind_eq_some_iff.mp called
      dsimp only at executed
      split at executed
      · split at executed
        · next succeeds =>
            obtain rfl := Option.some.inj executed
            exact holds.replaceProgram isRunning (clean succeeds thread process isRunning)
        · obtain rfl := Option.some.inj executed
          exact holds
      · cases executed
  | exit index =>
      obtain ⟨⟨thread, process⟩, isRunning, rfl⟩ := Option.map_eq_some_iff.mp called
      exact holds.doExit past isRunning

theorem initial : AddressInvariant ⟨0, fun _ => .default, 0, fun _ => 0, 0, [], []⟩ where
  tablesHeld := nofun
  imagesHeld := nofun
  placed := nofun
  imagesPast _ := le_refl 0
  execPast := nofun
  fresh index thread process isRunning := by
    obtain ⟨found, -⟩ := AddressState.running_eq_some.mp isRunning
    cases found

end AddressInvariant

/-- In every run in which programs are executed only while no address is kept
for the address space, and tables are shared through the parent only with
entries newer than the caller's program, no address outlives the program it
was registered for. -/
theorem no_stale_address_of_executes_clean
    {crates : Mm.LoaderCrates} {fuel : Nat} {state : AddressState}
    (reached : (addressMachine crates fuel).ReachableWithin (ExecutesClean crates fuel) state) :
    NoStaleAddress state := by
  refine AddressInvariant.noStaleAddress ?_
  refine Machine.ReachableWithin.invariant ?_ ?_ reached
  · rintro start rfl
    exact AddressInvariant.initial
  · intro source action target _ holds clean called
    obtain ⟨ticked, past⟩ := holds.tick
    exact ticked.call past clean called

def oneProgram : Mm.LoaderCrates :=
  { emptyDisk with
    readFile := fun _ => .ok []
    parseElf := fun _ => some ⟨[], none⟩
    elfParser := fun _ _ _ => some ⟨[], 0x2000, []⟩ }

/-- A call of `sys_execve` that finds the program. -/
def execProgram : ExecArgs := ⟨callerTask, 0x1000, 0x1008, 0x1010⟩

def noProcesses : AddressState := ⟨0, fun _ => .default, 0, fun _ => 0, 0, [], []⟩

theorem not_keepsAddress_runUserApp
    (isRunning : noProcesses.tick.runUserApp.running index = some (thread, process))
    (kept : Kept) :
    ¬ KeepsAddress noProcesses.tick.runUserApp.tables thread process kept := by
  obtain ⟨found, -, owner⟩ := AddressState.running_eq_some.mp isRunning
  have isFirst := List.mem_singleton.mp (List.mem_of_getElem? found)
  have isOwner := List.mem_singleton.mp (List.mem_of_getElem? owner)
  subst isFirst isOwner
  intro keeps
  cases keeps with
  | clearChildTid isSet => exact isSet rfl
  | stack isSet => cases isSet
  | action signo member => cases member

/-- A program that registers `clear_child_tid` after it was executed. -/
theorem no_stale_address_of_executes_clean_registered :
    ∃ state, (addressMachine oneProgram 8).ReachableWithin (ExecutesClean oneProgram 8) state ∧
      state.running 0 = some (⟨0, true, ⟨0x5000, 3⟩, none⟩, ⟨0, 0, some none, 2⟩) ∧
      NoStaleAddress state := by
  have meets :
      (addressMachine oneProgram 8).Meets (ExecutesClean oneProgram 8) noProcesses
        [.runUserApp, .execve 0 execProgram, .setTidAddress 0 0x5000] := by
    refine Machine.Meets.cons trivial rfl ⟨?_, ?_⟩
    · intro _ thread process _ other otherThread otherProcess otherRunning _
      exact not_keepsAddress_runUserApp otherRunning
    · intro target _
      exact ⟨trivial, fun _ _ => trivial⟩
  obtain ⟨state, reached, observed⟩ :=
    @Machine.exists_reachableWithin_of_exec _ _ (addressMachine oneProgram 8)
      (ExecutesClean oneProgram 8) noProcesses
      [.runUserApp, .execve 0 execProgram, .setTidAddress 0 0x5000]
      (fun state => decide
        (state.running 0 = some (⟨0, true, ⟨0x5000, 3⟩, none⟩, ⟨0, 0, some none, 2⟩)))
      rfl meets (by decide +kernel)
  exact ⟨state, reached, of_decide_eq_true observed, no_stale_address_of_executes_clean reached⟩

/-- A program that has registered a word to clear, a handler and a stack
executes another one: all three addresses are kept. -/
theorem execve_keeps_addresses :
    ∃ state, (addressMachine oneProgram 8).Reachable state ∧
      state.running 0 = some (⟨0, true, ⟨0x5000, 2⟩, some ⟨0x7000, 4⟩⟩, ⟨0, 0, some none, 5⟩) ∧
      state.images 0 = 5 ∧
      exitClears ⟨0, true, ⟨0x5000, 2⟩, some ⟨0x7000, 4⟩⟩ (.ok ()) = some ⟨0x5000, 2⟩ ∧
      deliveryUses state.tables ⟨0, true, ⟨0x5000, 2⟩, some ⟨0x7000, 4⟩⟩ ⟨0, 0, some none, 5⟩ 10 =
        [⟨0x6000, 3⟩, ⟨0x7000, 4⟩] ∧
      ¬ NoStaleAddress state := by
  obtain ⟨state, reached, observed⟩ :=
    @Machine.exists_reachable_of_exec _ _ (addressMachine oneProgram 8) noProcesses
      [.runUserApp, .setTidAddress 0 0x5000,
        .rtSigaction 0 ⟨10, .ok (some (.ok ⟨.handler 0x6000, none⟩)), .ok (), 8⟩,
        .sigaltstack 0 ⟨.ok (some ⟨0x7000, 8192, .ok ()⟩), .ok ()⟩,
        .execve 0 execProgram]
      (fun state => decide
        (state.running 0 = some (⟨0, true, ⟨0x5000, 2⟩, some ⟨0x7000, 4⟩⟩, ⟨0, 0, some none, 5⟩) ∧
          state.images 0 = 5 ∧
          deliveryUses state.tables ⟨0, true, ⟨0x5000, 2⟩, some ⟨0x7000, 4⟩⟩
              ⟨0, 0, some none, 5⟩ 10 =
            [⟨0x6000, 3⟩, ⟨0x7000, 4⟩]))
      rfl (by decide +kernel)
  obtain ⟨isRunning, replaced, delivered⟩ := of_decide_eq_true observed
  refine ⟨state, reached, isRunning, replaced, rfl, delivered, ?_⟩
  intro noStale
  have newer := noStale.exit 0 _ _ isRunning (.ok ()) _ rfl
  rw [replaced] at newer
  exact absurd newer (by decide)

end Vegar.Task

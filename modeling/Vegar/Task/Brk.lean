import Vegar.Lib.Machine
import Vegar.Task.Clone
import Vegar.Task.Execve

/-!
# The program break

`sys_brk` of `api/src/imp/mm/brk.rs`.  The break is a number of the process,
the heap is part of the address space: `sys_clone` starts a process with the
initial break, and `sys_execve` leaves the break.
-/

namespace Vegar.Task

open Vegar.Lib Vegar.Mm

/-- `axconfig::plat::USER_HEAP_BASE` and `USER_HEAP_SIZE`. -/
structure HeapConfig where
  base : Nat
  size : Nat

/-- The address space of a process and its heap bounds in `ProcessData`. -/
structure HeapProcess where
  aspace : Nat
  heapBottom : Nat
  heapTop : Nat
  deriving DecidableEq

/-- `ProcessData::new`. -/
def HeapProcess.new (config : HeapConfig) (aspace : Nat) : HeapProcess where
  aspace := aspace
  heapBottom := config.base
  heapTop := config.base

/-- The condition under which `sys_brk` moves the break. -/
def brkSucceeds (config : HeapConfig) (process : HeapProcess) (addr : Nat) :
    Bool :=
  addr ≠ 0 ∧ process.heapBottom ≤ addr ∧ addr ≤ process.heapBottom + config.size

/-- `sys_brk`. -/
def sysBrk (config : HeapConfig) (process : HeapProcess) (addr : Nat) :
    Nat × HeapProcess :=
  if brkSucceeds config process addr then
    (addr, { process with heapTop := addr })
  else (process.heapTop, process)

/-- The processes by pid.  `breaks` records for each address space the last
successful `brk` made on it since its image was loaded; the code has no such
record. -/
structure HeapState where
  processes : Nat → Option HeapProcess
  nextAspace : Nat
  breaks : Nat → Nat

/-- A call of `sys_execve` with the files and the task it finds. -/
structure ExecveCall where
  crates : LoaderCrates
  fuel : Nat
  task : ExecTask
  path : Nat
  argv : Nat
  envp : Nat

def ExecveCall.loads (call : ExecveCall) : Bool :=
  (sysExecve call.crates call.fuel call.task call.path call.argv call.envp).1.isOk

inductive HeapCall where
  | brk (pid addr : Nat)
  | clone (pid : Nat) (flags : BitVec 32) (env : CloneEnv) (child : Nat)
  | execve (pid : Nat) (call : ExecveCall)

namespace HeapState

def setProcess (state : HeapState) (pid : Nat) (process : HeapProcess) :
    HeapState :=
  { state with
    processes := Function.update state.processes pid (some process) }

def setBreak (state : HeapState) (aspace addr : Nat) : HeapState :=
  { state with breaks := Function.update state.breaks aspace addr }

/-- The process that `sys_clone` makes: with `CLONE_VM` it gets the caller's
address space, otherwise a copy, whose break is that of the original. -/
def addChild (state : HeapState) (config : HeapConfig)
    (flags : CloneFlags) (caller : HeapProcess) (child : Nat) : HeapState :=
  if flags.contains CloneFlags.vm then
    state.setProcess child (.new config caller.aspace)
  else
    { (state.setProcess child (.new config state.nextAspace)).setBreak
        state.nextAspace (state.breaks caller.aspace) with
      nextAspace := state.nextAspace + 1 }

end HeapState

/-- Any number of processes that call `sys_brk`, `sys_clone` and `sys_execve`,
from newly loaded ones on. -/
def heapMachine (config : HeapConfig) : Machine HeapState HeapCall where
  start state := (∀ aspace, state.breaks aspace = config.base) ∧
    ∀ pid process, state.processes pid = some process →
      process = .new config process.aspace ∧ process.aspace < state.nextAspace
  next
    | state, .brk pid addr => do
        let process ← state.processes pid
        let after := state.setProcess pid (sysBrk config process addr).2
        return if brkSucceeds config process addr
          then after.setBreak process.aspace addr else after
    | state, .clone pid flags env child => do
        let process ← state.processes pid
        match planClone flags env with
        | .error _ => return state
        | .ok .thread => return state
        | .ok (.process _) =>
            if (state.processes child).isSome then none
            else return state.addChild config (cloneFlags flags) process child
    | state, .execve pid call => do
        let process ← state.processes pid
        return if call.loads
          then state.setBreak process.aspace config.base else state

/-- `sys_brk(0)` returns the break of the address space. -/
def BreakFollows (config : HeapConfig) (state : HeapState) : Prop :=
  ∀ pid process, state.processes pid = some process →
    (sysBrk config process 0).1 = state.breaks process.aspace

/-- A step at which the processes agree about the break: where one moves it,
all others of the address space have it there; where a process is cloned, or
an image is loaded, the break is at its initial place. -/
def BreaksSettled (config : HeapConfig) (state : HeapState) : HeapCall → Prop
  | .brk pid addr =>
      ∀ process, state.processes pid = some process → brkSucceeds config process addr = true →
        ∀ other sharer, other ≠ pid → state.processes other = some sharer →
          sharer.aspace = process.aspace → sharer.heapTop = addr
  | .clone pid flags env _ =>
      ∀ process, state.processes pid = some process →
        (∃ sharesFiles, planClone flags env = .ok (.process sharesFiles)) →
        process.heapTop = config.base
  | .execve pid call =>
      call.loads = true →
      ∀ process, state.processes pid = some process →
        ∀ other sharer, state.processes other = some sharer →
          sharer.aspace = process.aspace → sharer.heapTop = config.base

/-! ## Every process has the break of its address space -/

section Runs

variable {config : HeapConfig} {state : HeapState}

@[simp]
theorem sysBrk_zero (process : HeapProcess) : (sysBrk config process 0).1 = process.heapTop := by
  simp [sysBrk, brkSucceeds]

@[simp]
theorem sysBrk_aspace (process : HeapProcess) (addr : Nat) :
    (sysBrk config process addr).2.aspace = process.aspace := by
  unfold sysBrk
  split <;> rfl

theorem sysBrk_heapTop (process : HeapProcess) (addr : Nat) :
    (sysBrk config process addr).2.heapTop =
      if brkSucceeds config process addr then addr else process.heapTop := by
  unfold sysBrk
  split <;> rfl

structure HeapInvariant (state : HeapState) : Prop where
  agrees :
    ∀ pid process, state.processes pid = some process →
      process.heapTop = state.breaks process.aspace
  held : ∀ pid process, state.processes pid = some process → process.aspace < state.nextAspace

theorem processes_setProcess {pid other : Nat} {process found : HeapProcess}
    (present : (state.setProcess pid process).processes other = some found) :
    other = pid ∧ found = process ∨ other ≠ pid ∧ state.processes other = some found := by
  change Function.update state.processes pid (some process) other = _ at present
  by_cases same : other = pid
  · rw [same, Function.update_self, Option.some.injEq] at present
    exact Or.inl ⟨same, present.symm⟩
  · rw [Function.update_of_ne same] at present
    exact Or.inr ⟨same, present⟩

theorem HeapInvariant.setProcess (holds : HeapInvariant state) {pid : Nat} {process : HeapProcess}
    (agrees : process.heapTop = state.breaks process.aspace)
    (held : process.aspace < state.nextAspace) :
    HeapInvariant (state.setProcess pid process) := by
  constructor
  · intro other found present
    rcases processes_setProcess present with ⟨-, rfl⟩ | ⟨-, before⟩
    · exact agrees
    · exact holds.agrees other found before
  · intro other found present
    rcases processes_setProcess present with ⟨-, rfl⟩ | ⟨-, before⟩
    · exact held
    · exact holds.held other found before

theorem heapInvariant_setBreak {aspace addr : Nat}
    (held : ∀ pid process, state.processes pid = some process → process.aspace < state.nextAspace)
    (moved : ∀ pid process, state.processes pid = some process →
      process.aspace = aspace → process.heapTop = addr)
    (others : ∀ pid process, state.processes pid = some process →
      process.aspace ≠ aspace → process.heapTop = state.breaks process.aspace) :
    HeapInvariant (state.setBreak aspace addr) := by
  refine ⟨?_, held⟩
  intro pid process present
  change process.heapTop = Function.update state.breaks aspace addr process.aspace
  by_cases same : process.aspace = aspace
  · rw [same, Function.update_self]
    exact moved pid process present same
  · rw [Function.update_of_ne same]
    exact others pid process present same

theorem heapInvariant_brk (holds : HeapInvariant state) {pid addr : Nat} {process : HeapProcess}
    (found : state.processes pid = some process)
    (settled : BreaksSettled config state (.brk pid addr)) :
    HeapInvariant
      (if brkSucceeds config process addr
        then (state.setProcess pid (sysBrk config process addr).2).setBreak process.aspace addr
        else state.setProcess pid (sysBrk config process addr).2) := by
  have top := @sysBrk_heapTop config process addr
  split
  · next succeeds =>
      rw [if_pos succeeds] at top
      have spaceHeld := holds.held pid process found
      apply heapInvariant_setBreak
      · intro other sharer present
        rcases processes_setProcess present with ⟨-, rfl⟩ | ⟨-, before⟩
        · rw [sysBrk_aspace]
          exact spaceHeld
        · exact holds.held other sharer before
      · intro other sharer present shares
        rcases processes_setProcess present with ⟨-, rfl⟩ | ⟨differs, before⟩
        · exact top
        · exact settled process found succeeds other sharer differs before shares
      · intro other sharer present shares
        rcases processes_setProcess present with ⟨-, rfl⟩ | ⟨-, before⟩
        · exact (shares (sysBrk_aspace process addr)).elim
        · exact holds.agrees other sharer before
  · next fails =>
      rw [if_neg fails] at top
      apply holds.setProcess
      · rw [top, sysBrk_aspace]
        exact holds.agrees pid process found
      · rw [sysBrk_aspace]
        exact holds.held pid process found

theorem heapInvariant_addChild
    (holds : HeapInvariant state) {pid child : Nat} {process : HeapProcess}
    (flags : CloneFlags) (found : state.processes pid = some process)
    (atBase : process.heapTop = config.base) :
    HeapInvariant (state.addChild config flags process child) := by
  have agrees := holds.agrees pid process found
  have held := holds.held pid process found
  unfold HeapState.addChild
  split
  · apply holds.setProcess
    · exact atBase.symm.trans agrees
    · exact held
  · constructor
    · intro other sharer present
      change sharer.heapTop =
        Function.update state.breaks state.nextAspace (state.breaks process.aspace) sharer.aspace
      rcases processes_setProcess present with ⟨-, rfl⟩ | ⟨-, before⟩
      · rw [HeapProcess.new, Function.update_self]
        exact atBase.symm.trans agrees
      · have old := holds.held other sharer before
        rw [Function.update_of_ne (Nat.ne_of_lt old)]
        exact holds.agrees other sharer before
    · intro other sharer present
      change sharer.aspace < state.nextAspace + 1
      rcases processes_setProcess present with ⟨-, rfl⟩ | ⟨-, before⟩
      · exact Nat.lt_succ_self _
      · exact Nat.lt_succ_of_lt (holds.held other sharer before)

theorem heapInvariant_execve (holds : HeapInvariant state) {pid : Nat} {process : HeapProcess}
    (found : state.processes pid = some process)
    {call : ExecveCall} (loads : call.loads = true)
    (settled : BreaksSettled config state (.execve pid call)) :
    HeapInvariant (state.setBreak process.aspace config.base) := by
  apply heapInvariant_setBreak holds.held
  · intro other sharer present shares
    exact settled loads process found other sharer present shares
  · intro other sharer present _
    exact holds.agrees other sharer present

theorem heapInvariant_of_reachable
    (reached : (heapMachine config).ReachableWithin (BreaksSettled config) state) :
    HeapInvariant state := by
  apply Machine.ReachableWithin.invariant _ _ reached
  · rintro started ⟨initial, fresh⟩
    constructor
    · intro pid process present
      rw [initial, (fresh pid process present).1]
      rfl
    · intro pid process present
      exact (fresh pid process present).2
  · intro source call target _ holds settled stepped
    cases call with
    | brk pid addr =>
        obtain ⟨process, found, stepped⟩ := Option.bind_eq_some_iff.mp stepped
        obtain rfl := Option.some.inj stepped
        exact heapInvariant_brk holds found settled
    | clone pid flags env child =>
        obtain ⟨process, found, stepped⟩ := Option.bind_eq_some_iff.mp stepped
        cases planned : planClone flags env with
        | error error =>
            rw [planned] at stepped
            obtain rfl := Option.some.inj stepped
            exact holds
        | ok plan =>
            rw [planned] at stepped
            cases plan with
            | thread =>
                obtain rfl := Option.some.inj stepped
                exact holds
            | process sharesFiles =>
                simp only at stepped
                split at stepped
                · cases stepped
                · obtain rfl := Option.some.inj stepped
                  exact heapInvariant_addChild holds (cloneFlags flags) found
                      (settled process found ⟨sharesFiles, planned⟩)
    | execve pid call =>
        obtain ⟨process, found, stepped⟩ := Option.bind_eq_some_iff.mp stepped
        obtain rfl := Option.some.inj stepped
        split
        · next loads =>
            exact heapInvariant_execve holds found loads settled
        · exact holds

end Runs

/-- In every run whose steps find the processes settled, `sys_brk(0)` returns
the break of the address space, and processes that share an address space
see the same break. -/
theorem brk_follows_address_space (config : HeapConfig) (state : HeapState)
    (reached : (heapMachine config).ReachableWithin (BreaksSettled config) state) :
    BreakFollows config state ∧
      ∀ pid process other sharer, state.processes pid = some process →
        state.processes other = some sharer →
        sharer.aspace = process.aspace →
        (sysBrk config sharer 0).1 = (sysBrk config process 0).1 := by
  have holds := heapInvariant_of_reachable reached
  have follows : BreakFollows config state := by
    intro pid process present
    rw [sysBrk_zero]
    exact holds.agrees pid process present
  refine ⟨follows, ?_⟩
  intro pid process other sharer present shared same
  rw [follows pid process present, follows other sharer shared, same]

def smallHeap : HeapConfig := ⟨0x1000, 0x1000⟩

def oneProcess : HeapState where
  processes pid := if pid = 1 then some (.new smallHeap 0) else none
  nextAspace := 1
  breaks _ := 0x1000

theorem oneProcess_start : (heapMachine smallHeap).start oneProcess := by
  refine ⟨fun _ => rfl, ?_⟩
  intro pid process present
  simp only [oneProcess] at present
  split at present
  · obtain rfl := Option.some.inj present
    exact ⟨rfl, by decide⟩
  · cases present

/-- `fork` by the first process. -/
def forkSecond : HeapCall := .clone 1 17 ⟨.ok (), .ok (), true, .ok ()⟩ 2

def OwnSpaces (state : HeapState) : Prop :=
  ∀ pid process, state.processes pid = some process → process.aspace + 1 = pid

namespace OwnSpaces

variable {config : HeapConfig} {state target : HeapState}

theorem settled (own : OwnSpaces state) (pid addr : Nat) :
    BreaksSettled config state (.brk pid addr) := by
  intro process found _ other sharer differs present shares
  have isPid := own pid process found
  have isOther := own other sharer present
  omega

theorem brk (own : OwnSpaces state) {pid addr : Nat}
    (stepped : (heapMachine config).next state (.brk pid addr) = some target) :
    OwnSpaces target := by
  obtain ⟨process, found, stepped⟩ := Option.bind_eq_some_iff.mp stepped
  have isTarget := Option.some.inj stepped
  have moved :
      target.processes = (state.setProcess pid (sysBrk config process addr).2).processes := by
    rw [← isTarget]
    split <;> rfl
  intro other sharer present
  rw [moved] at present
  rcases processes_setProcess present with ⟨isPid, rfl⟩ | ⟨-, before⟩
  · rw [sysBrk_aspace, isPid]
    exact own pid process found
  · exact own other sharer before

theorem fork (stepped : (heapMachine smallHeap).next oneProcess forkSecond = some target) :
    OwnSpaces target := by
  obtain rfl := Option.some.inj stepped
  intro pid process present
  rcases processes_setProcess present with ⟨rfl, rfl⟩ | ⟨-, before⟩
  · rfl
  · simp only [oneProcess] at before
    split at before
    · next isFirst =>
        rw [isFirst, ← Option.some.inj before]
        rfl
    · cases before

end OwnSpaces

/-- After the fork either process moves its own break. -/
theorem brk_follows_address_space_fork :
    ∃ state, (heapMachine smallHeap).ReachableWithin (BreaksSettled smallHeap) state ∧
      (state.processes 1).map HeapProcess.heapTop = some 0x1800 ∧
      (state.processes 2).map HeapProcess.heapTop = some 0x1400 ∧
      BreakFollows smallHeap state := by
  have forked : BreaksSettled smallHeap oneProcess forkSecond := by
    intro process present _
    obtain rfl := Option.some.inj present
    rfl
  have meets :
      (heapMachine smallHeap).Meets (BreaksSettled smallHeap) oneProcess
        [forkSecond, .brk 1 0x1800, .brk 2 0x1400] := by
    refine ⟨forked, fun child isFork => ?_⟩
    have own := OwnSpaces.fork isFork
    refine ⟨own.settled 1 0x1800, fun moved isMoved => ?_⟩
    exact ⟨(own.brk isMoved).settled 2 0x1400, fun _ _ => trivial⟩
  obtain ⟨state, reached, observed⟩ :=
    @Machine.exists_reachableWithin_of_exec _ _ (heapMachine smallHeap)
      (BreaksSettled smallHeap) oneProcess
      [forkSecond, .brk 1 0x1800, .brk 2 0x1400]
      (fun state => decide
        ((state.processes 1).map HeapProcess.heapTop = some 0x1800 ∧
          (state.processes 2).map HeapProcess.heapTop = some 0x1400))
      oneProcess_start meets (by decide)
  obtain ⟨first, second⟩ := of_decide_eq_true observed
  exact ⟨state, reached, first, second, (brk_follows_address_space smallHeap state reached).1⟩

/-- After the break is moved and the process forked, the child has the copied
heap and the initial break. -/
theorem fork_forgets_break :
    ∃ state, (heapMachine smallHeap).Reachable state ∧ ¬ BreakFollows smallHeap state := by
  obtain ⟨state, reached, observed⟩ := @Machine.exists_reachable_of_exec _ _ (heapMachine smallHeap)
      oneProcess [.brk 1 0x1800, forkSecond]
      (fun state => decide (state.processes 2 = some (.new smallHeap 1) ∧ state.breaks 1 = 0x1800))
      oneProcess_start (by decide)
  obtain ⟨present, moved⟩ := of_decide_eq_true observed
  refine ⟨state, reached, fun follows => ?_⟩
  have equal := follows 2 _ present
  change 0x1000 = state.breaks 1 at equal
  rw [moved] at equal
  exact absurd equal (by decide)

end Vegar.Task

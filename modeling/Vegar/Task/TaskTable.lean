import Vegar.Lib.Machine
import Vegar.Lib.Registry
import Vegar.Outcome

/-!
# The task tables

`THREAD_TABLE`, `PROCESS_TABLE`, `PROCESS_GROUP_TABLE` and `SESSION_TABLE` of
`core/src/task.rs`.  `add_thread_to_table` returns at the first level whose
key is already there.  It holds the lock of the thread table to its end, so
one call is one step.
-/

namespace Vegar.Task

open Vegar.Lib

structure TaskTables where
  threads : Registry
  processes : Registry
  groups : Registry
  sessions : Registry

structure TaskChain where
  process : Nat
  group : Nat
  session : Nat
  deriving DecidableEq, Repr

namespace TaskTables

def new : TaskTables := ⟨.new, .new, .new, .new⟩

/-- `thread.process()`, its `group()`, and the `session()` of that. -/
def chain (tables : TaskTables) (thread : Nat) : TaskChain :=
  let process := tables.threads.ownerOf thread
  let group := tables.processes.ownerOf process
  ⟨process, group, tables.groups.ownerOf group⟩

/-- The last level of `add_thread_to_table`. -/
def addSession (sessions : Registry) (session : Nat) : Registry :=
  if sessions.containsKey (sessions.keyOf session) then sessions
  else sessions.insert session

/-- The levels of `add_thread_to_table` from the process group on. -/
def addProcessGroup (tables : TaskTables) (processGroup : Nat) :
    TaskTables :=
  if tables.groups.containsKey (tables.groups.keyOf processGroup) then tables
  else
    { tables with
      groups := tables.groups.insert processGroup
      sessions := addSession tables.sessions (tables.groups.ownerOf processGroup) }

/-- The levels of `add_thread_to_table` from the process on. -/
def addProcess (tables : TaskTables) (process : Nat) : TaskTables :=
  if tables.processes.containsKey (tables.processes.keyOf process) then
    tables
  else
    addProcessGroup { tables with processes := tables.processes.insert process }
      (tables.processes.ownerOf process)

/-- `add_thread_to_table`. -/
def addThreadToTable (tables : TaskTables) (thread : Nat) : TaskTables :=
  addProcess { tables with threads := tables.threads.insert thread } (tables.threads.ownerOf thread)

/-- `get(&id).ok_or(LinuxError::ESRCH)`. -/
def lookup (table : Registry) (id : Nat) : LinuxResult Nat :=
  match table.get id with
  | some number => .ok number
  | none => .error .ESRCH

def getThread (tables : TaskTables) (tid : Nat) : LinuxResult Nat := lookup tables.threads tid

def getProcess (tables : TaskTables) (pid : Nat) : LinuxResult Nat := lookup tables.processes pid

def getProcessGroup (tables : TaskTables) (pgid : Nat) : LinuxResult Nat :=
  lookup tables.groups pgid

def getSession (tables : TaskTables) (sid : Nat) : LinuxResult Nat := lookup tables.sessions sid

def isUsed (tables : TaskTables) (member : TaskChain → Nat) (number : Nat) : Bool :=
  (List.range tables.threads.objects.length).any fun thread =>
    tables.threads.isAlive thread && member (tables.chain thread) == number

def LiveChain (tables : TaskTables) (chain : TaskChain) : Prop :=
  tables.processes.isAlive chain.process = true ∧ tables.groups.isAlive chain.group = true ∧
    tables.sessions.isAlive chain.session = true

instance (tables : TaskTables) (chain : TaskChain) : Decidable (tables.LiveChain chain) :=
  inferInstanceAs (Decidable (_ ∧ _ ∧ _))

def FoundByIds (tables : TaskTables) (thread : Nat) : Prop :=
  let chain := tables.chain thread
  tables.getThread (tables.threads.keyOf thread) = .ok thread ∧
    tables.getProcess (tables.processes.keyOf chain.process) = .ok chain.process ∧
    tables.getProcessGroup (tables.groups.keyOf chain.group) = .ok chain.group ∧
    tables.getSession (tables.sessions.keyOf chain.session) = .ok chain.session

theorem lookup_of_registered {table : Registry} {number : Nat} (alive : table.isAlive number = true)
    (registered : table.Registered number) :
    lookup table (table.keyOf number) = .ok number := by
  rw [lookup, Registry.get_of_registered alive registered]

theorem not_isUsed {tables : TaskTables} {member : TaskChain → Nat} {number thread : Nat}
    (unused : tables.isUsed member number = false)
    (alive : tables.threads.isAlive thread = true) :
    member (tables.chain thread) ≠ number := by
  obtain ⟨object, found, -⟩ := Registry.isAlive_iff.mp alive
  have bounded := (List.getElem?_eq_some_iff.mp found).1
  have absent := List.any_eq_false.mp unused thread (List.mem_range.mpr bounded)
  simpa [alive] using absent

end TaskTables

/-! ## Births, additions and deaths -/

structure TaskTableState where
  tables : TaskTables
  added : List Nat

inductive TaskTableAction where
  | newSession (sid : Nat)
  | newGroup (pgid session : Nat)
  | newProcess (pid group : Nat)
  | newThread (tid process : Nat)
  | addThread (thread : Nat)
  | threadDies (thread : Nat)
  | processDies (process : Nat)
  | groupDies (group : Nat)
  | sessionDies (session : Nat)
  deriving DecidableEq, Repr

def taskTableNext (state : TaskTableState) : TaskTableAction → Option TaskTableState
  | .newSession sid =>
      if free : state.tables.sessions.hasLive sid = false then
        some
          { state with
            tables :=
              { state.tables with
                sessions := state.tables.sessions.create sid 0 free } }
      else none
  | .newGroup pgid session =>
      if free : state.tables.groups.hasLive pgid = false then
        if state.tables.sessions.isAlive session = true then
          some
            { state with
              tables :=
                { state.tables with
                  groups := state.tables.groups.create pgid session free } }
        else none
      else none
  | .newProcess pid group =>
      if free : state.tables.processes.hasLive pid = false then
        if state.tables.groups.isAlive group = true then
          some
            { state with
              tables :=
                { state.tables with
                  processes := state.tables.processes.create pid group free } }
        else none
      else none
  | .newThread tid process =>
      if free : state.tables.threads.hasLive tid = false then
        let group := state.tables.processes.ownerOf process
        let session := state.tables.groups.ownerOf group
        if state.tables.LiveChain ⟨process, group, session⟩ then
          some
            { state with
              tables :=
                { state.tables with
                  threads := state.tables.threads.create tid process free } }
        else none
      else none
  | .addThread thread =>
      if state.tables.threads.isAlive thread = true then
        some
          { tables := state.tables.addThreadToTable thread
            added := thread :: state.added }
      else none
  | .threadDies thread =>
      some
        { state with
          tables :=
            { state.tables with
              threads := state.tables.threads.kill thread } }
  | .processDies process =>
      if state.tables.isUsed TaskChain.process process then none
      else
        some
          { state with
            tables :=
              { state.tables with
                processes := state.tables.processes.kill process } }
  | .groupDies group =>
      if state.tables.isUsed TaskChain.group group then none
      else
        some
          { state with
            tables :=
              { state.tables with
                groups := state.tables.groups.kill group } }
  | .sessionDies session =>
      if state.tables.isUsed TaskChain.session session then none
      else
        some
          { state with
            tables :=
              { state.tables with
                sessions := state.tables.sessions.kill session } }

def taskTableMachine : Machine TaskTableState TaskTableAction where
  start state := state = ⟨.new, []⟩
  next := taskTableNext

/-! ## What one call adds -/

namespace TaskTables

open Registry

theorem addSession_spec {sessions : Registry} {session : Nat}
    (alive : sessions.isAlive session = true) :
    KeepsObjects sessions (addSession sessions session) ∧
      (addSession sessions session).Registered session := by
  unfold addSession
  split
  · next present =>
      exact ⟨KeepsObjects.refl sessions, registered_of_containsKey alive present⟩
  · exact ⟨keepsObjects_insert alive, registered_insert_self alive⟩

structure Closed (tables : TaskTables) : Prop where
  processes : Nested tables.processes tables.groups
  groups : Nested tables.groups tables.sessions

structure Adds (before after : TaskTables) : Prop where
  closed : Closed after
  threads : KeepsObjects before.threads after.threads
  processes : KeepsObjects before.processes after.processes
  groups : KeepsObjects before.groups after.groups
  sessions : KeepsObjects before.sessions after.sessions

theorem addProcessGroup_spec {groups sessions : Registry} {tables : TaskTables} {processGroup : Nat}
    (nested : Nested tables.groups tables.sessions)
    (alive : tables.groups.isAlive processGroup = true)
    (sessionAlive : tables.sessions.isAlive (tables.groups.ownerOf processGroup) = true)
    (isGroups : groups = (tables.addProcessGroup processGroup).groups)
    (isSessions : sessions = (tables.addProcessGroup processGroup).sessions) :
    Nested groups sessions ∧ KeepsObjects tables.groups groups ∧
      KeepsObjects tables.sessions sessions ∧
      groups.Registered processGroup := by
  subst isGroups isSessions
  unfold addProcessGroup
  split
  · next present =>
      exact
        ⟨nested, KeepsObjects.refl _, KeepsObjects.refl _, registered_of_containsKey alive present⟩
  · obtain ⟨keeps, registered⟩ := addSession_spec sessionAlive
    exact ⟨nested.insert_child keeps alive registered, keepsObjects_insert alive,
        keeps, registered_insert_self alive⟩

theorem addProcessGroup_threads (tables : TaskTables) (processGroup : Nat) :
    (tables.addProcessGroup processGroup).threads = tables.threads := by
  unfold addProcessGroup
  split <;> rfl

theorem addProcessGroup_processes (tables : TaskTables) (processGroup : Nat) :
    (tables.addProcessGroup processGroup).processes = tables.processes := by
  unfold addProcessGroup
  split <;> rfl

theorem addProcess_spec {tables : TaskTables} {process : Nat} (closed : tables.Closed)
    (alive : tables.processes.isAlive process = true)
    (groupAlive : tables.groups.isAlive (tables.processes.ownerOf process) = true)
    (sessionAlive :
      tables.sessions.isAlive (tables.groups.ownerOf (tables.processes.ownerOf process)) = true) :
    Adds tables (tables.addProcess process) ∧
      (tables.addProcess process).processes.Registered process := by
  unfold addProcess
  split
  · next present =>
      exact ⟨⟨closed, .refl _, .refl _, .refl _, .refl _⟩, registered_of_containsKey alive present⟩
  · let entered := { tables with processes := tables.processes.insert process }
    obtain ⟨nested, groupsKept, sessionsKept, registered⟩ :=
      @addProcessGroup_spec _ _ entered _ closed.groups groupAlive sessionAlive rfl rfl
    have sameProcesses := entered.addProcessGroup_processes (tables.processes.ownerOf process)
    have sameThreads := entered.addProcessGroup_threads (tables.processes.ownerOf process)
    refine ⟨⟨⟨?_, nested⟩, ?_, ?_, groupsKept, sessionsKept⟩, ?_⟩
    · rw [sameProcesses]
      exact closed.processes.insert_child groupsKept alive registered
    · rw [sameThreads]
      exact KeepsObjects.refl _
    · rw [sameProcesses]
      exact keepsObjects_insert alive
    · rw [sameProcesses]
      exact registered_insert_self alive

theorem addThreadToTable_spec {tables : TaskTables} {thread : Nat} (closed : tables.Closed)
    (alive : tables.threads.isAlive thread = true)
    (live : tables.LiveChain (tables.chain thread)) :
    Adds tables (tables.addThreadToTable thread) ∧
      (tables.addThreadToTable thread).threads.Registered thread ∧
      (tables.addThreadToTable thread).processes.Registered (tables.chain thread).process := by
  let entered := { tables with threads := tables.threads.insert thread }
  have enteredClosed : entered.Closed := ⟨closed.processes, closed.groups⟩
  have threadKeeps := keepsObjects_insert alive
  obtain ⟨adds, registered⟩ := addProcess_spec enteredClosed live.1 live.2.1 live.2.2
  have threadsKept : KeepsObjects tables.threads (tables.addThreadToTable thread).threads := by
    refine ⟨adds.threads.objects.trans threadKeeps.objects, ?_⟩
    intro number numberAlive numberRegistered
    refine adds.threads.registered number ?_ ?_
    · exact (threadKeeps.isAlive number).trans numberAlive
    · exact threadKeeps.registered number numberAlive numberRegistered
  refine ⟨?_, ?_, registered⟩
  · exact ⟨adds.closed, threadsKept, adds.processes, adds.groups, adds.sessions⟩
  · refine adds.threads.registered thread ?_ (registered_insert_self alive)
    exact (threadKeeps.isAlive thread).trans alive

theorem chain_eq {before after : TaskTables} {thread : Nat}
    (threads : Preserves before.threads after.threads)
    (processes : Preserves before.processes after.processes)
    (groups : Preserves before.groups after.groups)
    (alive : before.threads.isAlive thread = true)
    (live : before.LiveChain (before.chain thread)) :
    after.chain thread = before.chain thread := by
  have sameProcess := threads.ownerOf alive
  have sameGroup := processes.ownerOf live.1
  have sameSession := groups.ownerOf live.2.1
  simp only [chain] at sameGroup sameSession ⊢
  rw [sameProcess, sameGroup, sameSession]

theorem Adds.chain {before after : TaskTables} (adds : Adds before after)
    (thread : Nat) : after.chain thread = before.chain thread := by
  simp only [TaskTables.chain, adds.threads.ownerOf, adds.processes.ownerOf, adds.groups.ownerOf]

theorem Adds.liveChain {before after : TaskTables} (adds : Adds before after)
    {chain : TaskChain} (live : before.LiveChain chain) :
    after.LiveChain chain := by
  unfold LiveChain
  rw [adds.processes.isAlive, adds.groups.isAlive, adds.sessions.isAlive]
  exact live

end TaskTables

/-! ## The invariant of the tables -/

structure TaskTableInvariant (state : TaskTableState) : Prop where
  closed : state.tables.Closed
  live :
    ∀ thread, state.tables.threads.isAlive thread = true →
      state.tables.LiveChain (state.tables.chain thread)
  known : ∀ thread ∈ state.added, thread < state.tables.threads.objects.length
  registered :
    ∀ thread ∈ state.added, state.tables.threads.isAlive thread = true →
      state.tables.threads.Registered thread ∧
        state.tables.processes.Registered (state.tables.chain thread).process

namespace TaskTableInvariant

open TaskTables Registry

theorem of_same_threads {tables after : TaskTables} {added : List Nat}
    (holds : TaskTableInvariant ⟨tables, added⟩)
    (closed : after.Closed)
    (threads : after.threads = tables.threads)
    (processes : Preserves tables.processes after.processes)
    (groups : Preserves tables.groups after.groups)
    (registered :
      ∀ process, tables.processes.Registered process → after.processes.Registered process)
    (live :
      ∀ thread, tables.threads.isAlive thread = true → tables.LiveChain (tables.chain thread) →
        after.LiveChain (tables.chain thread)) :
    TaskTableInvariant ⟨after, added⟩ := by
  have sameChain :
      ∀ thread, tables.threads.isAlive thread = true →
        after.chain thread = tables.chain thread := by
    intro thread alive
    refine chain_eq ?_ processes groups alive (holds.live thread alive)
    rw [threads]
    exact preserves_refl
  refine ⟨closed, ?_, ?_, ?_⟩
  · intro thread alive
    rw [threads] at alive
    rw [sameChain thread alive]
    exact live thread alive (holds.live thread alive)
  · intro thread isAdded
    rw [threads]
    exact holds.known thread isAdded
  · intro thread isAdded alive
    rw [threads] at alive ⊢
    rw [sameChain thread alive]
    obtain ⟨inThreads, inProcesses⟩ := holds.registered thread isAdded alive
    exact ⟨inThreads, registered _ inProcesses⟩

theorem newThread {tables : TaskTables} {added : List Nat} {tid process : Nat}
    (holds : TaskTableInvariant ⟨tables, added⟩)
    (free : tables.threads.hasLive tid = false)
    (live :
      tables.LiveChain
        ⟨process, tables.processes.ownerOf process,
          tables.groups.ownerOf (tables.processes.ownerOf process)⟩) :
    TaskTableInvariant
      ⟨{ tables with threads := tables.threads.create tid process free }, added⟩ := by
  have sameChain :
      ∀ thread, tables.threads.isAlive thread = true →
        TaskTables.chain { tables with threads := tables.threads.create tid process free }
          thread = tables.chain thread := by
    intro thread alive
    exact
      chain_eq (preserves_create free) preserves_refl preserves_refl alive (holds.live thread alive)
  refine ⟨⟨holds.closed.processes, holds.closed.groups⟩, ?_, ?_, ?_⟩
  · intro thread alive
    rcases (isAlive_create free).mp alive with old | rfl
    · rw [sameChain thread old]
      exact holds.live thread old
    · have isOwner :
          (tables.threads.create tid process free).ownerOf
            tables.threads.objects.length = process := by
        simp [ownerOf, create]
      simp only [TaskTables.chain, isOwner]
      exact live
  · intro thread isAdded
    have known := holds.known thread isAdded
    simp only [create, List.length_append, List.length_singleton]
    exact Nat.lt_succ_of_lt known
  · intro thread isAdded alive
    have known := holds.known thread isAdded
    rcases (isAlive_create free).mp alive with old | rfl
    · obtain ⟨inThreads, inProcesses⟩ := holds.registered thread isAdded old
      rw [sameChain thread old]
      exact ⟨(registered_create free).mpr inThreads, inProcesses⟩
    · exact absurd known (Nat.lt_irrefl _)

theorem threadDies {tables : TaskTables} {added : List Nat} {dying : Nat}
    (holds : TaskTableInvariant ⟨tables, added⟩) :
    TaskTableInvariant ⟨{ tables with threads := tables.threads.kill dying }, added⟩ := by
  have sameChain :
      ∀ thread, tables.threads.isAlive thread = true →
        TaskTables.chain { tables with threads := tables.threads.kill dying }
          thread = tables.chain thread := by
    intro thread alive
    exact chain_eq preserves_kill preserves_refl preserves_refl alive (holds.live thread alive)
  refine ⟨⟨holds.closed.processes, holds.closed.groups⟩, ?_, ?_, ?_⟩
  · intro thread alive
    have wasAlive := (isAlive_kill.mp alive).1
    rw [sameChain thread wasAlive]
    exact holds.live thread wasAlive
  · intro thread isAdded
    have known := holds.known thread isAdded
    simpa [kill] using known
  · intro thread isAdded alive
    have wasAlive := (isAlive_kill.mp alive).1
    obtain ⟨inThreads, inProcesses⟩ := holds.registered thread isAdded wasAlive
    rw [sameChain thread wasAlive]
    exact ⟨registered_kill.mpr inThreads, inProcesses⟩

theorem addThread {tables : TaskTables} {added : List Nat} {entering : Nat}
    (holds : TaskTableInvariant ⟨tables, added⟩)
    (alive : tables.threads.isAlive entering = true) :
    TaskTableInvariant ⟨tables.addThreadToTable entering, entering :: added⟩ := by
  obtain ⟨adds, inThreads, inProcesses⟩ :=
    addThreadToTable_spec holds.closed alive (holds.live entering alive)
  refine ⟨adds.closed, ?_, ?_, ?_⟩
  · intro thread threadAlive
    rw [adds.threads.isAlive] at threadAlive
    rw [adds.chain]
    exact adds.liveChain (holds.live thread threadAlive)
  · intro thread isAdded
    rw [adds.threads.objects]
    rcases List.mem_cons.mp isAdded with rfl | before
    · obtain ⟨object, found, -⟩ := isAlive_iff.mp alive
      exact (List.getElem?_eq_some_iff.mp found).1
    · exact holds.known thread before
  · intro thread isAdded threadAlive
    rw [adds.threads.isAlive] at threadAlive
    rw [adds.chain]
    rcases List.mem_cons.mp isAdded with rfl | before
    · exact ⟨inThreads, inProcesses⟩
    · obtain ⟨wasInThreads, wasInProcesses⟩ := holds.registered thread before threadAlive
      have processAlive := (holds.live thread threadAlive).1
      exact ⟨adds.threads.registered thread threadAlive wasInThreads,
          adds.processes.registered _ processAlive wasInProcesses⟩

theorem step {source target : TaskTableState} {action : TaskTableAction}
    (holds : TaskTableInvariant source)
    (stepped : taskTableNext source action = some target) :
    TaskTableInvariant target := by
  obtain ⟨tables, added⟩ := source
  cases action with
  | newSession sid =>
      simp only [taskTableNext, Option.dite_none_right_eq_some] at stepped
      obtain ⟨free, ⟨⟩⟩ := stepped
      refine holds.of_same_threads ⟨holds.closed.processes, ?_⟩ rfl
        preserves_refl preserves_refl (fun _ same => same) ?_
      · exact holds.closed.groups.create_parent free
      · intro thread _ live
        exact ⟨live.1, live.2.1, (isAlive_create free).mpr (Or.inl live.2.2)⟩
  | newGroup pgid session =>
      simp only [taskTableNext, Option.dite_none_right_eq_some,
        Option.ite_none_right_eq_some] at stepped
      obtain ⟨free, sessionAlive, ⟨⟩⟩ := stepped
      obtain ⟨object, found, -⟩ := isAlive_iff.mp sessionAlive
      have known := (List.getElem?_eq_some_iff.mp found).1
      refine holds.of_same_threads ⟨?_, ?_⟩ rfl
        preserves_refl (preserves_create free) (fun _ same => same) ?_
      · exact holds.closed.processes.create_parent free
      · exact holds.closed.groups.create_child free known
      · intro thread _ live
        exact ⟨live.1, (isAlive_create free).mpr (Or.inl live.2.1), live.2.2⟩
  | newProcess pid group =>
      simp only [taskTableNext, Option.dite_none_right_eq_some,
        Option.ite_none_right_eq_some] at stepped
      obtain ⟨free, groupAlive, ⟨⟩⟩ := stepped
      obtain ⟨object, found, -⟩ := isAlive_iff.mp groupAlive
      have known := (List.getElem?_eq_some_iff.mp found).1
      refine holds.of_same_threads ⟨?_, holds.closed.groups⟩ rfl
        (preserves_create free) preserves_refl ?_ ?_
      · exact holds.closed.processes.create_child free known
      · intro process registered
        exact (registered_create free).mpr registered
      · intro thread _ live
        exact ⟨(isAlive_create free).mpr (Or.inl live.1), live.2⟩
  | newThread tid process =>
      simp only [taskTableNext, Option.dite_none_right_eq_some,
        Option.ite_none_right_eq_some] at stepped
      obtain ⟨free, live, ⟨⟩⟩ := stepped
      exact holds.newThread free live
  | addThread thread =>
      simp only [taskTableNext, Option.ite_none_right_eq_some] at stepped
      obtain ⟨alive, ⟨⟩⟩ := stepped
      exact holds.addThread alive
  | threadDies thread =>
      cases stepped
      exact holds.threadDies
  | processDies process =>
      simp only [taskTableNext, Option.ite_none_left_eq_some, Bool.not_eq_true] at stepped
      obtain ⟨unused, ⟨⟩⟩ := stepped
      refine holds.of_same_threads ⟨?_, holds.closed.groups⟩ rfl preserves_kill preserves_refl ?_ ?_
      · exact holds.closed.processes.kill_child
      · intro other registered
        exact registered_kill.mpr registered
      · intro thread alive live
        exact ⟨isAlive_kill.mpr ⟨live.1, not_isUsed unused alive⟩, live.2⟩
  | groupDies group =>
      simp only [taskTableNext, Option.ite_none_left_eq_some, Bool.not_eq_true] at stepped
      obtain ⟨unused, ⟨⟩⟩ := stepped
      refine holds.of_same_threads ⟨?_, ?_⟩ rfl
        preserves_refl preserves_kill (fun _ same => same) ?_
      · exact holds.closed.processes.kill_parent
      · exact holds.closed.groups.kill_child
      · intro thread alive live
        exact ⟨live.1, isAlive_kill.mpr ⟨live.2.1, not_isUsed unused alive⟩, live.2.2⟩
  | sessionDies session =>
      simp only [taskTableNext, Option.ite_none_left_eq_some, Bool.not_eq_true] at stepped
      obtain ⟨unused, ⟨⟩⟩ := stepped
      refine holds.of_same_threads ⟨holds.closed.processes, ?_⟩ rfl
        preserves_refl preserves_refl (fun _ same => same) ?_
      · exact holds.closed.groups.kill_parent
      · intro thread alive live
        exact ⟨live.1, live.2.1, isAlive_kill.mpr ⟨live.2.2, not_isUsed unused alive⟩⟩

theorem initial : TaskTableInvariant ⟨.new, []⟩ where
  closed := ⟨⟨nofun, nofun⟩, ⟨nofun, nofun⟩⟩
  live := nofun
  known := nofun
  registered := nofun

theorem of_reachable {state : TaskTableState} (reached : taskTableMachine.Reachable state) :
    TaskTableInvariant state := by
  refine Machine.Reachable.invariant ?_ ?_ reached
  · rintro start rfl
    exact initial
  · intro source action target _ holds stepped
    exact holds.step stepped

theorem foundByIds {state : TaskTableState} {thread : Nat} (holds : TaskTableInvariant state)
    (isAdded : thread ∈ state.added)
    (alive : state.tables.threads.isAlive thread = true) :
    state.tables.FoundByIds thread := by
  obtain ⟨processAlive, groupAlive, sessionAlive⟩ := holds.live thread alive
  obtain ⟨inThreads, inProcesses⟩ := holds.registered thread isAdded alive
  have inGroups := holds.closed.processes.closed _ processAlive inProcesses groupAlive
  have inSessions := holds.closed.groups.closed _ groupAlive inGroups sessionAlive
  exact ⟨lookup_of_registered alive inThreads, lookup_of_registered processAlive inProcesses,
      lookup_of_registered groupAlive inGroups,
      lookup_of_registered sessionAlive inSessions⟩

end TaskTableInvariant

/-- In every reachable state the ids of an added thread that is alive, of its
process, of that process's group and of that group's session are answered with
exactly these objects. -/
theorem added_thread_found_by_ids
    {state : TaskTableState} (reached : taskTableMachine.Reachable state)
    {thread : Nat} (isAdded : thread ∈ state.added)
    (alive : state.tables.threads.isAlive thread = true) :
    state.tables.FoundByIds thread :=
  (TaskTableInvariant.of_reachable reached).foundByIds isAdded alive

/-- A thread dies with its process, group and session, and all four ids are
used again by a second thread. -/
theorem added_thread_found_by_reused_ids :
    ∃ state, taskTableMachine.Reachable state ∧ state.tables.threads.isAlive 0 = false ∧
      state.tables.threads.keyOf 0 = state.tables.threads.keyOf 1 ∧
      state.tables.FoundByIds 1 := by
  obtain ⟨state, reached, observed⟩ :=
    @Machine.exists_reachable_of_exec _ _ taskTableMachine ⟨.new, []⟩
      [.newSession 1, .newGroup 1 0, .newProcess 1 0, .newThread 1 0,
        .addThread 0, .threadDies 0, .processDies 0, .groupDies 0,
        .sessionDies 0, .newSession 1, .newGroup 1 1, .newProcess 1 1,
        .newThread 1 1, .addThread 1]
      (fun state => decide
        (state.tables.threads.isAlive 0 = false ∧
          state.tables.threads.keyOf 0 = state.tables.threads.keyOf 1 ∧
          1 ∈ state.added ∧ state.tables.threads.isAlive 1 = true))
      rfl (by decide +kernel)
  obtain ⟨dead, sameId, isAdded, alive⟩ := of_decide_eq_true observed
  exact ⟨state, reached, dead, sameId, added_thread_found_by_ids reached isAdded alive⟩

end Vegar.Task

import Vegar.File.PipeProgress
import Vegar.Task.PipeWorld

/-!
# What processes see of their pipes

End of file, broken pipes and waiting in terms of the descriptors and calls
that exist anywhere in the system, and what is left once all processes are
gone.
-/

namespace Vegar.Task

open Vegar.Lib Vegar.File

/-! ## Broken pipes -/

section Broken

variable {state target : PipeState} {action : PipeAction}

private theorem readEnd_of_next (stepped : pipeNext state action = some target)
    (gone : state.readEnd = false) :
    target.readEnd = false := by
  cases pipeStep_of_next stepped <;> first | exact gone | rfl

private theorem readEnd_of_writeEntry {readable : Bool} {buf : List UInt8}
    (alive : state.endAlive readable = true)
    (refused : writeEntry readable state.closed buf = some (.error .EPIPE)) :
    state.readEnd = false := by
  cases readable with
  | true => cases refused
  | false =>
      have writeOpen : state.writeEnd = true := alive
      by_contra readOpen
      rw [Bool.not_eq_false] at readOpen
      have isOpen : state.closed = false := by
        rw [PipeState.closed_of_writeEnd writeOpen, readOpen]
        rfl
      simp only [writeEntry, isOpen, Bool.false_eq_true, if_false] at refused
      split at refused <;> cases refused

private theorem broken_of_next (stepped : pipeNext state action = some target)
    {call : Nat} {buf : List UInt8}
    (broken : target.calls[call]? = some (.writeReturned buf (.error .EPIPE))) :
    state.calls[call]? = some (.writeReturned buf (.error .EPIPE)) ∨ state.readEnd = false := by
  cases action with
  | read readable len =>
      obtain ⟨-, entered⟩ := Option.ite_none_right_eq_some.mp stepped
      cases checks : readEntry readable len <;> rw [checks] at entered <;>
        obtain rfl := Option.some.inj entered <;>
        rcases Roster.old_or_added broken with old | ⟨-, isNew⟩
      · exact Or.inl old
      · cases isNew
      · exact Or.inl old
      · cases isNew
  | write readable data =>
      obtain ⟨alive, entered⟩ := Option.ite_none_right_eq_some.mp stepped
      cases checks : writeEntry readable state.closed data <;>
        rw [checks] at entered <;>
        obtain rfl := Option.some.inj entered <;>
        rcases Roster.old_or_added broken with old | ⟨-, isNew⟩
      · exact Or.inl old
      · cases isNew
      · exact Or.inl old
      · cases isNew
        exact Or.inr (readEnd_of_writeEntry alive checks)
  | lockSection running =>
      simp only [pipeNext] at stepped
      split at stepped
      · split at stepped
        · obtain rfl := Option.some.inj stepped
          exact Or.inl broken
        · obtain rfl := Option.some.inj stepped
          rcases Roster.replaced_or_same broken with ⟨-, isNew⟩ | ⟨-, old⟩
          · cases isNew
          · exact Or.inl old
      · obtain rfl := Option.some.inj stepped
        rcases Roster.replaced_or_same broken with ⟨-, isNew⟩ | ⟨-, old⟩
        · split at isNew <;> cases isNew
        · exact Or.inl old
      · cases stepped
  | drop readable =>
      cases readable <;>
        obtain ⟨-, dropped⟩ := Option.ite_none_right_eq_some.mp stepped <;>
        obtain rfl := Option.some.inj dropped <;>
        exact Or.inl broken

theorem readEnd_dropped_of_broken (reached : pipeMachine.Reachable state)
    {call : Nat} {buf : List UInt8}
    (broken : state.calls[call]? = some (.writeReturned buf (.error .EPIPE))) :
    state.readEnd = false := by
  induction reached generalizing call buf with
  | start isNew =>
      rw [show _ = PipeState.new from isNew] at broken
      cases broken
  | step action _ _ stepped ih =>
      rcases broken_of_next stepped broken with earlier | gone
      · exact readEnd_of_next stepped (ih earlier)
      · exact readEnd_of_next stepped gone

end Broken

/-! ## Ends and references -/

namespace PipeWorldSound

variable {world : PipeWorld}

theorem referenced_iff (sound : PipeWorldSound world) {ref : FileRef} :
    world.Referenced ref ↔ 0 < world.fds.strong ref := by
  have counted := sound.descriptors.balanced.counted ref
  constructor
  · intro referenced
    rcases referenced with ⟨table, live, id, found⟩ | ⟨use, member, isRef⟩
    · obtain ⟨process, inProcesses, -, isTable⟩ := live
      have known := sound.descriptors.tablesExist process inProcesses
      rw [isTable] at known
      exact sound.descriptors.balanced.strong_pos known found
    · rw [← isRef]
      exact strong_pos_of_use sound.descriptors.balanced member
  · intro positive
    by_cases inSlots : 0 < world.fds.slotCount ref
    · obtain ⟨table, id, -, found⟩ := FdWorld.slotCount_pos_iff.mp inSlots
      refine Or.inl ⟨table, ?_, id, found⟩
      by_contra dead
      rw [sound.descriptors.deadEmpty table dead, FlattenObjects.get_new] at found
      cases found
    · have inCalls : 0 < world.held.count ref := by omega
      exact Or.inr (List.mem_map.mp (List.count_pos_iff.mp inCalls))

theorem endAlive_iff (sound : PipeWorldSound world) {pipe : Nat} {readable : Bool} :
    world.endAlive pipe readable = true ↔ world.Referenced (.pipeEnd pipe readable) := by
  rw [sound.referenced_iff, PipeWorld.endAlive, decide_eq_true_iff]

theorem open_iff_referenced (sound : PipeWorldSound world) {index pid pipe : Nat} {readable : Bool}
    {call : Option Nat}
    (isUse : world.uses[index]? = some ⟨pid, .pipeEnd pipe readable, call⟩) :
    world.fds.closed pipe = false ↔ world.Referenced (.pipeEnd pipe (!readable)) := by
  have ownEnd := (sound.alive_of_use isUse).2
  rw [← sound.endAlive_iff, ← closed_pipeState sound.descriptors.balanced pipe]
  cases readable with
  | true =>
      rw [PipeState.closed_of_readEnd ownEnd, Bool.not_eq_false']
      exact Iff.rfl
  | false =>
      rw [PipeState.closed_of_writeEnd ownEnd, Bool.not_eq_false']
      exact Iff.rfl

end PipeWorldSound

/-- Every pipe is a reliable stream between all processes that have its
descriptors.  What was written through any descriptor of the write end is
what was read through any descriptor of the read end, followed by what is in
the buffer.  A read that reported the end of the file, and a write that was
refused with `EPIPE`, did so because no descriptor of a live process and no
running call refers to the other end, in any table; this stays so for ever,
and after the end of the file nothing is left to read. -/
theorem pipe_stream_between_processes
    {allocator : IdAllocator FileRef axFileLimit} {world : PipeWorld}
    (reached : (pipeWorldMachine allocator).Reachable world) (pipe : Nat) :
    (world.pipeState pipe).appendedBytes =
        (world.pipeState pipe).deliveredBytes ++ (world.buffers pipe).ring.contents ∧
      (∀ (call : Nat) (buf : List UInt8) (size : Nat),
        (world.buffers pipe).calls[call]? = some (.writeReturned buf (.ok size)) →
          size ≤ buf.length ∧ (world.pipeState pipe).appendedBy call = buf.take size) ∧
      (∀ (call len : Nat) (bytes : List UInt8),
        (world.buffers pipe).calls[call]? = some (.readReturned len (.ok bytes)) → bytes ≠ [] →
          (world.pipeState pipe).deliveriesTo call = [(call, bytes)]) ∧
      (∀ call len : Nat,
        (world.buffers pipe).calls[call]? = some (.readReturned len (.ok [])) → len ≠ 0 →
          ¬ world.Referenced (.pipeEnd pipe false) ∧ (world.buffers pipe).ring.contents = []) ∧
      ∀ (call : Nat) (buf : List UInt8),
        (world.buffers pipe).calls[call]? = some (.writeReturned buf (.error .EPIPE)) →
          ¬ world.Referenced (.pipeEnd pipe true) := by
  have sound := PipeWorldSound.of_reachable reached
  by_cases made : pipe < world.fds.pipes
  · have alone := sound.reached pipe made
    have invariant := PipeState.StreamInvariant.of_reachable alone
    refine ⟨invariant.stream, ?_, ?_, ?_, ?_⟩
    · intro call buf size returned
      exact invariant.sound call _ returned
    · intro call len bytes returned nonempty
      have delivered := invariant.sound call _ returned
      cases bytes with
      | nil => exact absurd rfl nonempty
      | cons byte rest => exact delivered.2
    · intro call len returned wanted
      obtain ⟨gone, drained⟩ := invariant.sound call _ returned wanted
      refine ⟨?_, drained⟩
      rw [← sound.endAlive_iff, Bool.not_eq_true]
      exact gone
    · intro call buf refused
      have gone := readEnd_dropped_of_broken alone refused
      rw [← sound.endAlive_iff, Bool.not_eq_true]
      exact gone
  · have unused := sound.fresh pipe (Nat.le_of_not_lt made)
    rw [PipeWorld.pipeState, unused]
    refine ⟨rfl, ?_, ?_, ?_, ?_⟩ <;> simp [PipeBuffer.new]

/-! ## Waiting -/

def Withholds (buffer : PipeBuffer) (readable : Bool) : Prop :=
  if readable then buffer.ring.contents = []
  else buffer.ring.contents.length = ringBufferSize

theorem lockSection_stays_iff {allocator : IdAllocator FileRef axFileLimit} {world : PipeWorld}
    (sound : PipeWorldSound world) {index pid pipe call : Nat}
    {readable : Bool}
    (isUse : world.uses[index]? = some ⟨pid, .pipeEnd pipe readable, some call⟩) :
    pipeWorldNext allocator world (.lockSection index) = some world ↔
      (world.pipeState pipe).Waits call := by
  rw [PipeState.Waits, PipeWorld.pipeState, pipeNext_lockSection,
    ← PipeWorld.pipeState, closed_pipeState sound.descriptors.balanced]
  simp only [pipeWorldNext, isUse, Option.map_eq_some_iff]
  constructor
  · rintro ⟨buffer, taken, same⟩
    refine ⟨buffer, taken, ?_⟩
    rw [PipeWorld.pipeState, ← same, PipeWorld.withBuffer_self]
  · rintro ⟨buffer, taken, same⟩
    refine ⟨buffer, taken, ?_⟩
    have isBuffer : buffer = world.buffers pipe := by
      cases buffer
      cases same
      rfl
    rw [isBuffer, PipeWorld.withBuffer_buffers]

def returnsAtEnd : PipeCall → PipeCall
  | .reading len => .readReturned len (.ok [])
  | .writing progress =>
      .writeReturned progress.buf (.ok progress.writeSize)
  | returned => returned

theorem lockSection_of_closed
    {buffer : PipeBuffer} {call : Nat} {readable : Bool} {current : PipeCall}
    (isCall : buffer.calls[call]? = some current)
    (inLoop : current.loopsOn readable = true)
    (withholds : Withholds buffer readable) :
    ∃ after, buffer.lockSection true call = some after ∧
      after.calls[call]? = some (returnsAtEnd current) := by
  have inside := (List.getElem?_eq_some_iff.mp isCall).1
  have total := buffer.ring.availableRead_add_availableWrite
  have isLength := buffer.ring.length_contents
  cases current with
  | reading len =>
      obtain rfl : readable = true := inLoop
      have isEmpty : buffer.ring.contents = [] := withholds
      rw [isEmpty, List.length_nil] at isLength
      have noData : min buffer.ring.availableRead len = 0 := by omega
      simp only [PipeBuffer.lockSection, isCall, readSection, if_pos noData, if_true]
      exact ⟨_, rfl, List.getElem?_set_self inside⟩
  | writing progress =>
      obtain rfl : readable = false := by
        simpa [PipeCall.loopsOn] using inLoop
      have isFull : buffer.ring.contents.length = ringBufferSize := withholds
      have noRoom : buffer.ring.availableWrite = 0 := by omega
      simp only [PipeBuffer.lockSection, isCall, writeSection, if_pos noRoom, if_true]
      exact ⟨_, rfl, List.getElem?_set_self inside⟩
  | readReturned len result => cases inLoop
  | writeReturned buf result => cases inLoop

/-- A call inside of the loop of `Pipe::read` or `Pipe::write` makes no
progress exactly while the pipe is empty or full and a live table or a
running call, of whatever process, refers to the other end.  Once the last of
these references is dropped, its next section returns. -/
theorem pipe_call_waits_iff {allocator : IdAllocator FileRef axFileLimit} {world : PipeWorld}
    (reached : (pipeWorldMachine allocator).Reachable world)
    {index pid pipe call : Nat} {readable : Bool} {current : PipeCall}
    (isUse : world.uses[index]? = some ⟨pid, .pipeEnd pipe readable, some call⟩)
    (isCall : (world.buffers pipe).calls[call]? = some current)
    (inLoop : current.loopsOn readable = true) :
    (pipeWorldNext allocator world (.lockSection index) = some world ↔
      Withholds (world.buffers pipe) readable ∧ world.Referenced (.pipeEnd pipe (!readable))) ∧
      (Withholds (world.buffers pipe) readable →
        ¬ world.Referenced (.pipeEnd pipe (!readable)) →
          ∃ target,
            pipeWorldNext allocator world (.lockSection index) = some target ∧
              (target.buffers pipe).calls[call]? = some (returnsAtEnd current)) := by
  have sound := PipeWorldSound.of_reachable reached
  have made := (sound.alive_of_use isUse).1
  have isClosed := closed_pipeState sound.descriptors.balanced pipe
  have otherEnd := sound.open_iff_referenced isUse
  refine ⟨?_, ?_⟩
  · rw [lockSection_stays_iff sound isUse, ← otherEnd, ← isClosed]
    cases current with
    | reading len =>
        obtain rfl : readable = true := inLoop
        have invariant := PipeState.StreamInvariant.of_reachable (sound.reached pipe made)
        have wanted := (invariant.sound call _ isCall).2.1
        exact waits_iff_of_reading isCall wanted
    | writing progress =>
        obtain rfl : readable = false := by
          simpa [PipeCall.loopsOn] using inLoop
        exact waits_iff_of_writing isCall
    | readReturned len result => cases inLoop
    | writeReturned buf result => cases inLoop
  · intro withholds unreferenced
    rw [← otherEnd, Bool.not_eq_false] at unreferenced
    obtain ⟨after, taken, returned⟩ := lockSection_of_closed isCall inLoop withholds
    refine ⟨world.withBuffer pipe after world.uses, ?_, ?_⟩
    · simp only [pipeWorldNext, isUse, unreferenced, taken, Option.map_some]
    · rw [PipeWorld.withBuffer_self]
      exact returned

/-! ## When all processes are gone -/

inductive ProcessesAfter (processes : List FdProcess) (action : FdAction) : List FdProcess → Prop
  | same : ProcessesAfter processes action processes
  | added (table : Nat) : table ≠ 0 → ProcessesAfter processes action (processes ++ [⟨table, 1⟩])
  | threads (pid : Nat) (process : FdProcess) (threads : Nat) : pid ≠ 0 →
      processes[pid]? = some process →
      process.threads ≤ threads ∨ action = .exit pid ∧ process.threads ≤ threads + 1 →
      ProcessesAfter processes action (processes.set pid { process with threads := threads })

namespace ProcessesAfter

variable {before later : List FdProcess} {action : FdAction} {pid : Nat}

theorem length_le (after : ProcessesAfter before action later) :
    before.length ≤ later.length := by
  cases after with
  | same => exact Nat.le_refl _
  | added table _ => simp
  | threads _ _ _ _ _ _ => simp

theorem kernel_kept (after : ProcessesAfter before action later) {process : FdProcess}
    (found : before[0]? = some process) :
    later[0]? = some process := by
  cases after with
  | same => exact found
  | added table _ => exact Roster.getElem?_append_of_some found _
  | threads _ _ _ isUser _ _ =>
      rw [List.getElem?_set_ne isUser]
      exact found

theorem old_or_new (after : ProcessesAfter before action later) {process : FdProcess}
    (found : later[pid]? = some process) :
    (∃ old, before[pid]? = some old ∧ process.table = old.table ∧
        (old.threads ≤ process.threads ∨ action = .exit pid ∧ old.threads ≤ process.threads + 1)) ∨
      pid = before.length ∧ process.table ≠ 0 := by
  cases after with
  | same =>
      exact Or.inl ⟨process, found, rfl, Or.inl (Nat.le_refl _)⟩
  | added table isUser =>
      rcases Roster.old_or_added found with old | ⟨atEnd, isNew⟩
      · exact Or.inl ⟨process, old, rfl, Or.inl (Nat.le_refl _)⟩
      · rw [isNew]
        exact Or.inr ⟨atEnd, isUser⟩
  | threads changed old threads _ wasThere counted =>
      rcases Roster.replaced_or_same found with ⟨isChanged, isNew⟩ | ⟨-, unchanged⟩
      · rw [isNew, isChanged]
        exact Or.inl ⟨old, wasThere, rfl, counted⟩
      · exact Or.inl ⟨process, unchanged, rfl, Or.inl (Nat.le_refl _)⟩

end ProcessesAfter

structure KernelApart (world : FdWorld) : Prop where
  kernel : world.processes[0]? = some ⟨0, 1⟩
  stdio : world.tables[0]? = some stdioSlots
  apart : ∀ pid process, pid ≠ 0 → world.processes[pid]? = some process → process.table ≠ 0

section Steps

variable {held : List FileRef} {world target : FdWorld} {action : FdAction}

private theorem tables_ne_nil (sound : SoundHolding held world) (kept : KernelApart world) :
    world.tables.length ≠ 0 := by
  have := sound.tablesExist _ (List.mem_of_getElem? kept.kernel)
  omega

private theorem spawnCopied_processes (sound : SoundHolding held world) (kept : KernelApart world)
    {table : Nat} (known : table < world.tables.length) :
    ProcessesAfter world.processes action (spawnCopied world table).processes ∧
      (spawnCopied world table).tables[0]? = world.tables[0]? := by
  obtain ⟨processes, tables⟩ := sound.spawnCopied_spec known
  have nonempty := tables_ne_nil sound kept
  rw [processes, tables]
  exact ⟨.added _ nonempty, List.getElem?_append_left (Nat.pos_of_ne_zero nonempty)⟩

theorem fdStep_processes (sound : SoundHolding held world) (kept : KernelApart world)
    (stepped : FdStep held world action target) :
    ProcessesAfter world.processes action target.processes ∧
      target.tables[0]? = world.tables[0]? := by
  cases stepped with
  | start found =>
      exact spawnCopied_processes sound kept (sound.tablesExist _ (List.mem_of_getElem? found))
  | call running leaves =>
      obtain ⟨isUser, found, -⟩ := runningProcess_eq_some.mp running
      have different := kept.apart _ _ isUser found
      rw [leaves.only.processes]
      exact ⟨.same, leaves.only.others 0 different.symm⟩
  | @clone pid process running flags env =>
      obtain ⟨isUser, found, -⟩ := runningProcess_eq_some.mp running
      have known := sound.tablesExist process (List.mem_of_getElem? found)
      unfold sysClone
      rcases planClone flags env with error | (_ | (_ | _))
      · exact ⟨.same, rfl⟩
      · exact ⟨.threads pid process _ isUser found (Or.inl (Nat.le_succ _)), rfl⟩
      · exact spawnCopied_processes sound kept known
      · exact ⟨.added _ (kept.apart pid process isUser found), rfl⟩
  | @exit pid process running =>
      obtain ⟨isUser, found, -⟩ := runningProcess_eq_some.mp running
      have different := kept.apart pid process isUser found
      have counted : process.threads ≤ process.threads - 1 + 1 := by omega
      have after :
          ProcessesAfter world.processes (.exit pid)
            (setThreads world pid process (process.threads - 1)).processes :=
        .threads pid process _ isUser found (Or.inr ⟨rfl, counted⟩)
      unfold doExit
      split
      · have known := sound.tablesExist process (List.mem_of_getElem? found)
        have balanced : (setThreads world pid process (process.threads - 1)).Balanced held [] :=
          sound.balanced.withProcesses _
        have only := (FdWorld.clear_spec balanced known).1.only
        rw [only.processes]
        exact ⟨after, only.others 0 different.symm⟩
      · exact ⟨after, rfl⟩

theorem KernelApart.step (kept : KernelApart world) (sound : SoundHolding held world)
    (stepped : FdStep held world action target) :
    KernelApart target := by
  obtain ⟨after, firstTable⟩ := fdStep_processes sound kept stepped
  refine ⟨after.kernel_kept kept.kernel, firstTable.trans kept.stdio, ?_⟩
  intro pid process isUser found
  rcases after.old_or_new found with ⟨old, wasThere, sameTable, -⟩ | new
  · rw [sameTable]
    exact kept.apart pid old isUser wasThere
  · exact new.2

end Steps

structure Accounted (world : PipeWorld) : Prop where
  kernel : KernelApart world.fds
  users : ∀ pid ∈ world.uses.map FileUse.pid, pid ≠ 0 ∧ pid < world.fds.processes.length
  busyFits :
    ∀ pid process, world.fds.processes[pid]? = some process → world.busy pid ≤ process.threads

namespace Accounted

variable {world target : PipeWorld} {allocator : IdAllocator FileRef axFileLimit}

theorem boot : Accounted .boot where
  kernel :=
    { kernel := rfl
      stdio := rfl
      apart := by
        intro pid process isUser found
        cases pid with
        | zero => exact absurd rfl isUser
        | succ pid => cases found }
  users := by
    intro pid member
    cases member
  busyFits _ _ _ := Nat.zero_le _

theorem of_pids (accounted : Accounted world) (sameFds : target.fds.processes = world.fds.processes)
    (sameTable : target.fds.tables[0]? = world.fds.tables[0]?)
    (fewer : (target.uses.map FileUse.pid).Sublist (world.uses.map FileUse.pid)) :
    Accounted target where
  kernel :=
    { kernel := sameFds ▸ accounted.kernel.kernel
      stdio := sameTable.trans accounted.kernel.stdio
      apart := sameFds ▸ accounted.kernel.apart }
  users pid member := by
    rw [sameFds]
    exact accounted.users pid (fewer.subset member)
  busyFits pid process found := by
    rw [sameFds] at found
    exact Nat.le_trans (fewer.count_le pid) (accounted.busyFits pid process found)

theorem descriptorsStep (accounted : Accounted world) (sound : PipeWorldSound world)
    {action : FdAction} {fds : FdWorld}
    (free : ∀ pid, action.actor = some pid → (world.freeProcess pid).isSome)
    (stepped : fdNext allocator world.fds action = some fds) :
    Accounted { world with fds := fds } := by
  have step := sound.descriptors.fdStep_of_next stepped
  obtain ⟨after, -⟩ := fdStep_processes sound.descriptors accounted.kernel step
  refine ⟨accounted.kernel.step sound.descriptors step, ?_, ?_⟩
  · intro pid member
    obtain ⟨isUser, known⟩ := accounted.users pid member
    exact ⟨isUser, Nat.lt_of_lt_of_le known after.length_le⟩
  · intro pid process found
    change (world.uses.map FileUse.pid).count pid ≤ _
    rcases after.old_or_new found with ⟨old, wasThere, -, more | ⟨isExit, oneLess⟩⟩ | ⟨isNew, -⟩
    · exact Nat.le_trans (accounted.busyFits pid old wasThere) more
    · obtain ⟨owner, isOwner⟩ := Option.isSome_iff_exists.mp (free pid (by rw [isExit]; rfl))
      obtain ⟨running, spare⟩ := Option.filter_eq_some_iff.mp isOwner
      obtain ⟨-, ownerFound, -⟩ := runningProcess_eq_some.mp running
      obtain rfl := Option.some.inj (ownerFound.symm.trans wasThere)
      have fewer := of_decide_eq_true spare
      change (world.uses.map FileUse.pid).count pid < _ at fewer
      omega
    · have idle : (world.uses.map FileUse.pid).count pid = 0 := by
        rw [List.count_eq_zero]
        intro member
        have known := (accounted.users pid member).2
        omega
      omega

private theorem getFileLike_keeps
    {fds after : FdWorld} {table : Nat} {fd : BitVec 32} {ref : FileRef}
    (got : fds.getFileLike table fd = (.ok ref, after)) :
    after.processes = fds.processes ∧ after.tables = fds.tables := by
  unfold FdWorld.getFileLike at got
  split at got
  · obtain ⟨-, rfl⟩ := Prod.mk.inj got
    exact ⟨rfl, rfl⟩
  · cases got

theorem getFileLikeStep (accounted : Accounted world) {pid : Nat} {process : FdProcess}
    (free : world.freeProcess pid = some process)
    {fd : BitVec 32} {ref : FileRef} {fds : FdWorld}
    (got : world.fds.getFileLike process.table fd = (.ok ref, fds)) :
    Accounted { world with fds := fds, uses := world.uses ++ [⟨pid, ref, none⟩] } := by
  obtain ⟨running, spare⟩ := Option.filter_eq_some_iff.mp free
  obtain ⟨isUser, found, -⟩ := runningProcess_eq_some.mp running
  have known := (List.getElem?_eq_some_iff.mp found).1
  obtain ⟨processes, tables⟩ := getFileLike_keeps got
  refine ⟨⟨?_, ?_, ?_⟩, ?_, ?_⟩
  · rw [processes]
    exact accounted.kernel.kernel
  · rw [tables]
    exact accounted.kernel.stdio
  · rw [processes]
    exact accounted.kernel.apart
  · intro asked member
    rw [processes]
    rw [List.map_append, List.mem_append] at member
    rcases member with old | new
    · exact accounted.users asked old
    · obtain rfl : asked = pid := List.mem_singleton.mp new
      exact ⟨isUser, known⟩
  · intro asked owner ownerFound
    rw [processes] at ownerFound
    change ((world.uses ++ [_]).map FileUse.pid).count asked ≤ _
    rw [List.map_append, List.count_append]
    by_cases same : asked = pid
    · subst same
      obtain rfl := Option.some.inj (found.symm.trans ownerFound)
      have fewer := of_decide_eq_true spare
      change (world.uses.map FileUse.pid).count asked < _ at fewer
      simp only [List.map_cons, List.map_nil, List.count_singleton_self]
      omega
    · have fits := accounted.busyFits asked owner ownerFound
      change (world.uses.map FileUse.pid).count asked ≤ _ at fits
      simp only [List.map_cons, List.map_nil,
        List.count_singleton, beq_iff_eq, if_neg (Ne.symm same)]
      omega

theorem startCallStep (accounted : Accounted world) {index pid pipe : Nat} {readable : Bool}
    (isUse : world.uses[index]? = some ⟨pid, .pipeEnd pipe readable, none⟩)
    (call : PipeCall) :
    Accounted (world.startCall index pid pipe readable call) := by
  have samePids :
      (world.startCall index pid pipe readable call).uses.map FileUse.pid =
        world.uses.map FileUse.pid :=
    Roster.map_set_of_same isUse rfl
  exact accounted.of_pids rfl rfl (by rw [samePids])

theorem next (accounted : Accounted world) (sound : PipeWorldSound world) {action : PipeWorldAction}
    (stepped : pipeWorldNext allocator world action = some target) :
    Accounted target := by
  cases action with
  | descriptors action =>
      obtain ⟨free, taken⟩ := Option.ite_none_right_eq_some.mp stepped
      obtain ⟨fds, next, rfl⟩ := Option.map_eq_some_iff.mp taken
      refine accounted.descriptorsStep sound ?_ next
      intro pid isActor
      rw [isActor] at free
      exact free
  | getFileLike pid fd =>
      obtain ⟨process, free, rfl⟩ := Option.map_eq_some_iff.mp stepped
      cases got : world.fds.getFileLike process.table fd with
      | mk result fds =>
          cases result with
          | error error =>
              rw [FdWorld.getFileLike_error got]
              exact accounted
          | ok ref => exact accounted.getFileLikeStep free got
  | read index len =>
      simp only [pipeWorldNext] at stepped
      split at stepped
      · next isUse =>
          obtain rfl := Option.some.inj stepped
          exact accounted.startCallStep isUse _
      · cases stepped
  | write index buf =>
      simp only [pipeWorldNext] at stepped
      split at stepped
      · next isUse =>
          obtain rfl := Option.some.inj stepped
          exact accounted.startCallStep isUse _
      · cases stepped
  | lockSection index =>
      simp only [pipeWorldNext] at stepped
      split at stepped
      · obtain ⟨buffer, -, rfl⟩ := Option.map_eq_some_iff.mp stepped
        exact accounted.of_pids rfl rfl (List.Sublist.refl _)
      · cases stepped
  | dropFile index =>
      simp only [pipeWorldNext] at stepped
      split at stepped
      · next isUse =>
          obtain ⟨-, isTarget⟩ := Option.ite_none_right_eq_some.mp stepped
          obtain rfl := Option.some.inj isTarget
          refine accounted.of_pids (FdWorld.release_processes _ _) ?_
            ((List.eraseIdx_sublist _ _).map _)
          rw [FdWorld.release_tables]
      · cases stepped

theorem of_reachable (reached : (pipeWorldMachine allocator).Reachable world) :
    Accounted world := by
  refine Machine.Reachable.invariant ?_ ?_ reached
  · intro start isBoot
    rw [show start = .boot from isBoot]
    exact boot
  · intro source action target reachedSource accounted stepped
    exact accounted.next (PipeWorldSound.of_reachable reachedSource) stepped

end Accounted

private theorem slotCount_eq_first {world : FdWorld} {first : FdSlots}
    (isFirst : world.tables[0]? = some first)
    (empty : ∀ table, table ≠ 0 → world.tableAt table = .new)
    (ref : FileRef) :
    world.slotCount ref = first.count ref := by
  obtain ⟨others, isTables⟩ : ∃ others, world.tables = first :: others := by
    cases tables : world.tables with
    | nil =>
        rw [tables] at isFirst
        cases isFirst
    | cons head others =>
        rw [tables] at isFirst
        exact ⟨others, by rw [Option.some.inj isFirst]⟩
  have othersEmpty : ∀ slots ∈ others, slots.count ref = 0 := by
    intro slots member
    obtain ⟨position, found⟩ := List.mem_iff_getElem?.mp member
    have inTables : world.tables[position + 1]? = some slots := by
      rw [isTables]
      exact found
    have isNew := empty (position + 1) (Nat.succ_ne_zero position)
    rw [FdWorld.tableAt_eq inTables] at isNew
    rw [isNew, FlattenObjects.count_new]
  rw [FdWorld.slotCount, isTables, List.map_cons, List.sum_cons, List.map_congr_left othersEmpty]
  simp

/-- Nothing is leaked: in every state of every run in which no user process
has a thread left, no call is running, every reference counter of a file or
of an end of a pipe is what it was when the kernel had booted, and the buffer
of every pipe has been freed. -/
theorem all_references_dropped {allocator : IdAllocator FileRef axFileLimit} {world : PipeWorld}
    (reached : (pipeWorldMachine allocator).Reachable world)
    (exited :
      ∀ pid process, pid ≠ 0 → world.fds.processes[pid]? = some process → process.threads = 0) :
    world.uses = [] ∧ world.fds.strong = bootWorld.strong ∧
      ∀ pipe, world.fds.bufferStrong pipe = 0 := by
  have sound := PipeWorldSound.of_reachable reached
  have accounted := Accounted.of_reachable reached
  have noUse : world.uses = [] := by
    by_contra someUse
    obtain ⟨use, member⟩ := List.exists_mem_of_ne_nil _ someUse
    have isPid : use.pid ∈ world.uses.map FileUse.pid := List.mem_map_of_mem member
    obtain ⟨isUser, known⟩ := accounted.users _ isPid
    have found := List.getElem?_eq_getElem known
    have fits := accounted.busyFits _ _ found
    rw [exited _ _ isUser found] at fits
    have busy := List.count_pos_iff.mpr isPid
    change List.count _ _ ≤ 0 at fits
    omega
  have otherTablesEmpty : ∀ table, table ≠ 0 → world.fds.tableAt table = .new := by
    intro table different
    apply sound.descriptors.deadEmpty table
    rintro ⟨process, member, running, isTable⟩
    obtain ⟨pid, found⟩ := List.mem_iff_getElem?.mp member
    by_cases isKernel : pid = 0
    · subst isKernel
      obtain rfl := Option.some.inj (found.symm.trans accounted.kernel.kernel)
      exact different isTable.symm
    · rw [exited pid process isKernel found] at running
      exact Nat.lt_irrefl 0 running
  have strong : world.fds.strong = bootWorld.strong := by
    funext ref
    have now := sound.descriptors.balanced.counted ref
    have atBoot := DescriptorsSound.boot.balanced.counted ref
    rw [PipeWorld.held, noUse, List.map_nil, List.count_nil,
      slotCount_eq_first accounted.kernel.stdio otherTablesEmpty] at now
    rw [List.count_nil, slotCount_eq_first rfl] at atBoot
    · exact now.trans atBoot.symm
    · intro table different
      cases table with
      | zero => exact absurd rfl different
      | succ table => rfl
  refine ⟨noUse, strong, ?_⟩
  intro pipe
  have buffers := sound.descriptors.balanced.buffers pipe
  rw [buffers, FdWorld.liveEnd, FdWorld.liveEnd, strong]
  rfl

/-! ## A process with a pipe -/

section Runs

variable {allocator : IdAllocator FileRef axFileLimit}

private theorem reached_next {world target : PipeWorld} {action : PipeWorldAction}
    (reached : (pipeWorldMachine allocator).Reachable world)
    (stepped : pipeWorldNext allocator world action = some target) :
    (pipeWorldMachine allocator).Reachable target :=
  reached.step action stepped

def usesWorld (fds : FdWorld) (pipe : Nat) (buffer : PipeBuffer)
    (uses : List FileUse) : PipeWorld where
  fds := fds
  buffers := Function.update (fun _ => .new) pipe buffer
  uses := uses

def quietWorld (fds : FdWorld) (uses : List FileUse) : PipeWorld where
  fds := fds
  buffers _ := .new
  uses := uses

private theorem usesWorld_new (fds : FdWorld) (pipe : Nat) (uses : List FileUse) :
    usesWorld fds pipe .new uses = quietWorld fds uses := by
  rw [usesWorld, Function.update_eq_self_iff.mpr rfl, quietWorld]

def pipedFds (allocator : IdAllocator FileRef axFileLimit) : FdWorld :=
  ((spawnCopied bootWorld 0).sysPipe2 allocator 1 (.ok ())).2

private theorem firstProcess_table : (spawnCopied bootWorld 0).tables[1]? = some stdioSlots := by
  rw [firstProcess_spec.2]
  rfl

private theorem pipedFds_processes : (pipedFds allocator).processes = [⟨0, 1⟩, ⟨1, 1⟩] := by
  have sound := DescriptorsSound.boot.holding.spawnCopied Nat.one_pos
  have known := (List.getElem?_eq_some_iff.mp firstProcess_table).1
  have only := (@FdWorld.sysPipe2_leaves allocator _ 1 [] sound.balanced known (.ok ())).only
  rw [pipedFds, only.processes, firstProcess_spec.1]

private theorem sysPipe2_strong {fds : FdWorld} {table : Nat}
    (slots : fds.tables[table]? = some stdioSlots) (readable : Bool) :
    (fds.sysPipe2 allocator table (.ok ())).2.strong (.pipeEnd fds.pipes readable) = 1 := by
  have free : ∀ id, 3 ≤ id → (fds.tableAt table).get id = none := by
    intro id beyond
    rw [FdWorld.tableAt_eq slots]
    exact stdioSlots_get_of_three_le beyond
  exact (@FdWorld.sysPipe2_of_free allocator fds table
      (List.getElem?_eq_some_iff.mp slots).1 3 4 (by decide) (by decide)
      (by decide) (free 3 (by decide)) (free 4 (by decide))).2 readable

private theorem exists_pipe_pipedFds :
    ∃ pipe, ∀ readable, (pipedFds allocator).strong (.pipeEnd pipe readable) = 1 :=
  ⟨_, sysPipe2_strong firstProcess_table⟩

private theorem quietWorld_free
    {fds : FdWorld} {uses : List FileUse} {pid : Nat} {process : FdProcess}
    (running : runningProcess fds pid = some process)
    (idle : (uses.map FileUse.pid).count pid < process.threads) :
    (quietWorld fds uses).freeProcess pid = some process := by
  change (runningProcess fds pid).filter _ = _
  rw [running]
  exact Option.filter_some_pos (decide_eq_true idle)

private theorem pipedFds_running : runningProcess (pipedFds allocator) 1 = some ⟨1, 1⟩ := by
  rw [runningProcess_eq_some, pipedFds_processes]
  exact ⟨by decide, rfl, Nat.one_pos⟩

private theorem quietWorld_step {fds after : FdWorld} {action : FdAction}
    (reached : (pipeWorldMachine allocator).Reachable (quietWorld fds []))
    (free : ∀ pid, action.actor = some pid → (runningProcess fds pid).isSome)
    (stepped : fdNext allocator fds action = some after) :
    (pipeWorldMachine allocator).Reachable (quietWorld after []) := by
  have allowed : action.actor.all (fun pid =>
        ((quietWorld fds []).freeProcess pid).isSome) = true := by
    cases isActor : action.actor with
    | none => rfl
    | some pid =>
        obtain ⟨process, running⟩ := Option.isSome_iff_exists.mp (free pid isActor)
        have alive := (runningProcess_eq_some.mp running).2.2
        rw [Option.all_some, @quietWorld_free fds [] pid process running alive]
        rfl
  have next :
      pipeWorldNext allocator (quietWorld fds []) (.descriptors action) =
        some (quietWorld after []) := by
    rw [pipeWorldNext, if_pos allowed]
    change (fdNext allocator fds action).map _ = _
    rw [stepped]
    rfl
  exact reached_next reached next

private theorem pipedWorld_reachable :
    (pipeWorldMachine allocator).Reachable (quietWorld (pipedFds allocator) []) := by
  have booted : (pipeWorldMachine allocator).Reachable (quietWorld bootWorld []) := .start rfl
  have started :
      (pipeWorldMachine allocator).Reachable (quietWorld (spawnCopied bootWorld 0) []) := by
    refine @quietWorld_step _ _ _ .runUserApp booted ?_ rfl
    intro pid isActor
    cases isActor
  refine @quietWorld_step _ _ _ (.pipe2 1 (.ok ())) started ?_ ?_
  · intro pid isActor
    obtain rfl := Option.some.inj isActor
    rw [firstProcess_running]
    rfl
  · rw [fdNext, firstProcess_running, Option.map_some, pipedFds]

private theorem stdioSlots_get_ne (id pipe : Nat) (readable : Bool) :
    stdioSlots.get id ≠ some (.pipeEnd pipe readable) := by
  rw [stdioSlots, FlattenObjects.get_setSlot _ (by decide),
    FlattenObjects.get_setSlot _ (by decide),
    FlattenObjects.get_setSlot _ (by decide)]
  split_ifs <;> simp

private theorem exists_descriptor {pipe : Nat} {readable : Bool}
    (isEnd : (pipedFds allocator).strong (.pipeEnd pipe readable) = 1) :
    ∃ id < axFileLimit,
      ((pipedFds allocator).tableAt 1).get id = some (.pipeEnd pipe readable) := by
  have sound := PipeWorldSound.of_reachable (@pipedWorld_reachable allocator)
  have accounted := Accounted.of_reachable (@pipedWorld_reachable allocator)
  have referenced : (quietWorld (pipedFds allocator) []).Referenced (.pipeEnd pipe readable) := by
    rw [sound.referenced_iff]
    exact Nat.lt_of_lt_of_eq Nat.one_pos isEnd.symm
  rcases referenced with ⟨table, live, id, found⟩ | ⟨use, member, -⟩
  · obtain ⟨process, inProcesses, -, isTable⟩ := live
    change process ∈ (pipedFds allocator).processes at inProcesses
    rw [pipedFds_processes] at inProcesses
    rcases List.mem_cons.mp inProcesses with isKernel | isUser
    · rw [← isTable, isKernel, FdWorld.tableAt_eq accounted.kernel.stdio] at found
      exact absurd found (stdioSlots_get_ne id pipe readable)
    · rw [← isTable, List.mem_singleton.mp isUser] at found
      exact ⟨id, FlattenObjects.lt_of_get_eq_some found, found⟩
  · cases member

private theorem quietWorld_getFileLike {fds : FdWorld} {uses : List FileUse} {pid id : Nat}
    {process : FdProcess} {ref : FileRef}
    (reached : (pipeWorldMachine allocator).Reachable (quietWorld fds uses))
    (running : runningProcess fds pid = some process)
    (idle : (uses.map FileUse.pid).count pid < process.threads)
    (inside : id < axFileLimit)
    (found : (fds.tableAt process.table).get id = some ref) :
    (pipeWorldMachine allocator).Reachable
      (quietWorld (fds.retain ref) (uses ++ [⟨pid, ref, none⟩])) := by
  have got :
      (quietWorld fds uses).fds.getFileLike process.table (.ofNat 32 id) =
        (.ok ref, fds.retain ref) := by
    change fds.getFileLike process.table (.ofNat 32 id) = _
    rw [FdWorld.getFileLike, FdWorld.fdIndex_ofNat inside, found]
  have stepped :
      pipeWorldNext allocator (quietWorld fds uses) (.getFileLike pid (.ofNat 32 id)) =
        some (quietWorld (fds.retain ref) (uses ++ [⟨pid, ref, none⟩])) := by
    rw [pipeWorldNext, quietWorld_free running idle, Option.map_some, got]
    rfl
  exact reached_next reached stepped

section Uses

variable {fds : FdWorld} {pipe : Nat} {buffer after : PipeBuffer} {uses : List FileUse}

private theorem usesWorld_buffers : (usesWorld fds pipe buffer uses).buffers pipe = buffer := by
  simp only [usesWorld, Function.update_self]

private theorem usesWorld_startCall (index pid : Nat) (readable : Bool) (call : PipeCall) :
    (usesWorld fds pipe buffer uses).startCall index pid pipe readable call =
      usesWorld fds pipe (buffer.start call)
        (uses.set index ⟨pid, .pipeEnd pipe readable, some buffer.calls.length⟩) := by
  rw [PipeWorld.startCall, usesWorld_buffers]
  simp only [PipeWorld.withBuffer, usesWorld, Function.update_idem]

private theorem usesWorld_lockSection (index : Nat) {pid call : Nat} {readable : Bool}
    (reached : (pipeWorldMachine allocator).Reachable (usesWorld fds pipe buffer uses))
    (isUse : uses[index]? = some ⟨pid, .pipeEnd pipe readable, some call⟩)
    (taken : buffer.lockSection (fds.closed pipe) call = some after) :
    (pipeWorldMachine allocator).Reachable (usesWorld fds pipe after uses) := by
  have found :
      (usesWorld fds pipe buffer uses).uses[index]? =
        some ⟨pid, .pipeEnd pipe readable, some call⟩ :=
    isUse
  have sameFds : (usesWorld fds pipe buffer uses).fds = fds := rfl
  refine @reached_next allocator _ _ (.lockSection index) reached ?_
  simp only [pipeWorldNext, found, usesWorld_buffers, sameFds, taken, Option.map_some]
  simp only [PipeWorld.withBuffer, usesWorld, Function.update_idem]

end Uses

/-! ### A byte from one process to another -/

def sharedFds (allocator : IdAllocator FileRef axFileLimit) : FdWorld :=
  spawnShared (pipedFds allocator) 1

private theorem sharedFds_processes :
    (sharedFds allocator).processes = [⟨0, 1⟩, ⟨1, 1⟩, ⟨1, 1⟩] := by
  change (pipedFds allocator).processes ++ _ = _
  rw [pipedFds_processes]
  rfl

private theorem sharedFds_reachable :
    (pipeWorldMachine allocator).Reachable (quietWorld (sharedFds allocator) []) := by
  have shares : planClone (CloneFlags.files ||| 17) .willing = .ok (.process true) := by
    decide
  have stepped :=
    @fdNext_clone_shared allocator (pipedFds allocator) _ _ _ _ pipedFds_running shares
  refine @quietWorld_step _ _ _ _ pipedWorld_reachable ?_ stepped
  intro pid isActor
  obtain rfl := Option.some.inj isActor
  rw [pipedFds_running]
  rfl

def passedIn : PipeBuffer :=
  ((PipeBuffer.new.start (.writing ⟨[0x61], 0, WriteProgress.nothing _⟩)).lockSection false
    0).getD .new

def passedOut : PipeBuffer := ((passedIn.start (.reading 1)).lockSection false 1).getD .new

private theorem lockSection_passedIn (closed : Bool) :
    (PipeBuffer.new.start (.writing ⟨[0x61], 0, WriteProgress.nothing _⟩)).lockSection closed 0 =
      some passedIn := by
  cases closed <;> rfl

private theorem lockSection_passedOut (closed : Bool) :
    (passedIn.start (.reading 1)).lockSection closed 1 = some passedOut := by
  cases closed <;> rfl

private theorem exists_passed :
    ∃ fds pipe,
      (pipeWorldMachine allocator).Reachable
        (usesWorld fds pipe passedOut
          [⟨2, .pipeEnd pipe false, some 0⟩, ⟨1, .pipeEnd pipe true, some 1⟩]) := by
  obtain ⟨pipe, isPipe⟩ := @exists_pipe_pipedFds allocator
  obtain ⟨readFd, readInside, readFound⟩ := exists_descriptor (isPipe true)
  obtain ⟨writeFd, writeInside, writeFound⟩ := exists_descriptor (isPipe false)
  have childRuns : runningProcess (sharedFds allocator) 2 = some ⟨1, 1⟩ := by
    rw [runningProcess_eq_some, sharedFds_processes]
    exact ⟨by decide, rfl, Nat.one_pos⟩
  have parentRuns : runningProcess (sharedFds allocator) 1 = some ⟨1, 1⟩ := by
    rw [runningProcess_eq_some, sharedFds_processes]
    exact ⟨by decide, rfl, Nat.one_pos⟩
  have reached := @sharedFds_reachable allocator
  have isReadFd : ((sharedFds allocator).tableAt 1).get readFd = some (.pipeEnd pipe true) :=
    readFound
  have isWriteFd : ((sharedFds allocator).tableAt 1).get writeFd = some (.pipeEnd pipe false) :=
    writeFound
  generalize sharedFds allocator = shared at *
  have childHolds := quietWorld_getFileLike reached childRuns Nat.one_pos writeInside isWriteFd
  have begun := quietWorld_getFileLike childHolds parentRuns Nat.one_pos readInside isReadFd
  generalize (shared.retain (.pipeEnd pipe false)).retain (.pipeEnd pipe true) = fds at begun
  have isChild :
      (quietWorld fds [⟨2, .pipeEnd pipe false, none⟩, ⟨1, .pipeEnd pipe true, none⟩]).uses[0]? =
        some ⟨2, .pipeEnd pipe false, none⟩ :=
    rfl
  have isOpen : fds.closed pipe = false :=
    ((PipeWorldSound.of_reachable begun).open_iff_referenced isChild).mpr
      (.inr ⟨_, List.mem_cons_of_mem _ (List.mem_singleton_self _), rfl⟩)
  rw [← usesWorld_new fds pipe] at begun
  have entered : writeEntry false (fds.closed pipe) [0x61] = none := by
    rw [isOpen]
    rfl
  have writing :
      pipeWorldNext allocator
          (usesWorld fds pipe .new [⟨2, .pipeEnd pipe false, none⟩, ⟨1, .pipeEnd pipe true, none⟩])
          (.write 0 [0x61]) =
        some ((usesWorld fds pipe .new
          [⟨2, .pipeEnd pipe false, none⟩, ⟨1, .pipeEnd pipe true, none⟩]).startCall 0 2 pipe false
          (.writing ⟨[0x61], 0, WriteProgress.nothing _⟩)) := by
    have sameFds (uses : List FileUse) : (usesWorld fds pipe .new uses).fds = fds := rfl
    have isUse (uses : List FileUse) : (usesWorld fds pipe .new uses).uses = uses := rfl
    simp only [pipeWorldNext, isUse, List.getElem?_cons_zero, sameFds, entered]
  rw [usesWorld_startCall] at writing
  have stored := usesWorld_lockSection 0 (reached_next begun writing) rfl (lockSection_passedIn _)
  have reading :
      pipeWorldNext allocator
          (usesWorld fds pipe passedIn
            [⟨2, .pipeEnd pipe false, some 0⟩, ⟨1, .pipeEnd pipe true, none⟩])
          (.read 1 1) =
        some
          ((usesWorld fds pipe passedIn
            [⟨2, .pipeEnd pipe false, some 0⟩,
              ⟨1, .pipeEnd pipe true, none⟩]).startCall 1 1 pipe true
            (.reading 1)) :=
    rfl
  rw [usesWorld_startCall] at reading
  exact
    ⟨fds, pipe, usesWorld_lockSection 1 (reached_next stored reading) rfl (lockSection_passedOut _)⟩

/-- A child has written a byte that its parent has read. -/
theorem pipe_stream_between_processes_passed :
    ∃ world pipe,
      (pipeWorldMachine (.smallest _ _)).Reachable world ∧
        world.uses = [⟨2, .pipeEnd pipe false, some 0⟩, ⟨1, .pipeEnd pipe true, some 1⟩] ∧
        (world.buffers pipe).calls = [.writeReturned [0x61] (.ok 1), .readReturned 1 (.ok [0x61])] ∧
        (world.pipeState pipe).appendedBy 0 = [0x61] ∧
        (world.pipeState pipe).deliveriesTo 1 = [(1, [0x61])] := by
  obtain ⟨fds, pipe, reached⟩ := @exists_passed (.smallest _ _)
  obtain ⟨-, written, delivered, -⟩ := pipe_stream_between_processes reached pipe
  rw [usesWorld_buffers] at written delivered
  refine ⟨_, pipe, reached, rfl, ?_, ?_, ?_⟩
  · rw [usesWorld_buffers]
    rfl
  · exact (written 0 [0x61] 1 rfl).2
  · exact delivered 1 1 [0x61] rfl (List.cons_ne_nil _ _)

/-! ### A reader whose process closes the write end -/

def threadedFds (allocator : IdAllocator FileRef axFileLimit) : FdWorld :=
  setThreads (pipedFds allocator) 1 ⟨1, 1⟩ 2

private theorem threadedFds_reachable :
    (pipeWorldMachine allocator).Reachable (quietWorld (threadedFds allocator) []) := by
  have joins :
      planClone (CloneFlags.thread ||| CloneFlags.vm ||| CloneFlags.sighand) .willing =
        .ok .thread := by
    decide
  have stepped :
      fdNext allocator (pipedFds allocator)
          (.clone 1 (CloneFlags.thread ||| CloneFlags.vm ||| CloneFlags.sighand) .willing) =
        some (threadedFds allocator) := by
    rw [fdNext, pipedFds_running, Option.map_some, sysClone, joins, threadedFds]
  refine @quietWorld_step _ _ _ _ pipedWorld_reachable ?_ stepped
  intro pid isActor
  obtain rfl := Option.some.inj isActor
  rw [pipedFds_running]
  rfl

private theorem threadedFds_running : runningProcess (threadedFds allocator) 1 = some ⟨1, 2⟩ := by
  rw [runningProcess_eq_some]
  refine ⟨by decide, ?_, Nat.two_pos⟩
  change ((pipedFds allocator).processes.set 1 _)[1]? = _
  rw [pipedFds_processes]
  rfl

def readingWorld (fds : FdWorld) (pipe : Nat) : PipeWorld :=
  usesWorld fds pipe (PipeBuffer.new.start (.reading 1)) [⟨1, .pipeEnd pipe true, some 0⟩]

private theorem readingWorld_close {fds : FdWorld} (pipe : Nat) (fd : BitVec 32)
    (running : runningProcess fds 1 = some ⟨1, 2⟩) :
    pipeWorldNext allocator (readingWorld fds pipe) (.descriptors (.close 1 fd)) =
      some (readingWorld (fds.closeFileLike 1 fd).2 pipe) := by
  have free : (readingWorld fds pipe).freeProcess 1 = some ⟨1, 2⟩ := by
    change (runningProcess fds 1).filter _ = _
    rw [running]
    rfl
  have allowed : ((FdAction.close 1 fd).actor.all fun pid =>
        ((readingWorld fds pipe).freeProcess pid).isSome) = true := by
    rw [FdAction.actor, Option.all_some, free]
    rfl
  have closes :
      fdNext allocator (readingWorld fds pipe).fds (.close 1 fd) =
        some (fds.closeFileLike 1 fd).2 := by
    change fdNext allocator fds (.close 1 fd) = _
    rw [fdNext, running, Option.map_some]
  rw [pipeWorldNext, if_pos allowed, closes, Option.map_some]
  rfl

private theorem exists_closed :
    ∃ fds pipe fd,
      (pipeWorldMachine allocator).Reachable (readingWorld fds pipe) ∧
        0 < fds.strong (.pipeEnd pipe false) ∧
        runningProcess fds 1 = some ⟨1, 2⟩ ∧
        (fds.closeFileLike 1 fd).2.strong (.pipeEnd pipe false) = 0 := by
  obtain ⟨pipe, isPipe⟩ := @exists_pipe_pipedFds allocator
  obtain ⟨readFd, readInside, readFound⟩ := exists_descriptor (isPipe true)
  obtain ⟨writeFd, writeInside, writeFound⟩ := exists_descriptor (isPipe false)
  have isStrong : (threadedFds allocator).strong (.pipeEnd pipe false) = 1 := isPipe false
  have isReadFd : ((threadedFds allocator).tableAt 1).get readFd = some (.pipeEnd pipe true) :=
    readFound
  have isWriteFd : ((threadedFds allocator).tableAt 1).get writeFd = some (.pipeEnd pipe false) :=
    writeFound
  have holds := quietWorld_getFileLike (@threadedFds_reachable allocator)
      threadedFds_running Nat.two_pos readInside isReadFd
  have running := @threadedFds_running allocator
  generalize threadedFds allocator = before at *
  rw [← usesWorld_new _ pipe] at holds
  have reads :
      pipeWorldNext allocator
          (usesWorld (before.retain (.pipeEnd pipe true)) pipe .new [⟨1, .pipeEnd pipe true, none⟩])
          (.read 0 1) =
        some
          ((usesWorld (before.retain (.pipeEnd pipe true)) pipe .new
            [⟨1, .pipeEnd pipe true, none⟩]).startCall 0 1 pipe true
            (.reading 1)) :=
    rfl
  rw [usesWorld_startCall] at reads
  have otherEnd : FileRef.pipeEnd pipe false ≠ .pipeEnd pipe true := by
    simp
  have kept : (before.retain (.pipeEnd pipe true)).strong (.pipeEnd pipe false) = 1 := by
    simp only [FdWorld.retain, Function.update_of_ne otherEnd, isStrong]
  refine ⟨before.retain (.pipeEnd pipe true), pipe, .ofNat 32 writeFd,
      reached_next holds reads, ?_, running, ?_⟩
  · exact Nat.lt_of_lt_of_eq Nat.one_pos kept.symm
  · have found :
        ((before.retain (.pipeEnd pipe true)).tableAt 1).get writeFd = some (.pipeEnd pipe false) :=
      isWriteFd
    rw [FdWorld.closeFileLike, FdWorld.fdIndex_ofNat writeInside, found]
    simp only [FdWorld.strong_release, Function.update_self]
    exact congrArg (· - 1) kept

/-- A reader waits while its process has the write end, and returns nothing
once the other thread has closed it. -/
theorem pipe_call_waits_iff_closed :
    ∃ before after pipe fd,
      (pipeWorldMachine (.smallest _ _)).Reachable before ∧
        pipeWorldNext (.smallest _ _) before (.lockSection 0) = some before ∧
        pipeWorldNext (.smallest _ _) before (.descriptors (.close 1 fd)) = some after ∧
        ∃ target,
          pipeWorldNext (.smallest _ _) after (.lockSection 0) = some target ∧
            (target.buffers pipe).calls[0]? = some (.readReturned 1 (.ok [])) := by
  obtain ⟨fds, pipe, fd, reached, strong, running, dropped⟩ := @exists_closed (.smallest _ _)
  have closes := @readingWorld_close (.smallest _ _) fds pipe fd running
  have reachedAfter := reached_next reached closes
  have inLoop (fds : FdWorld) :
      ((readingWorld fds pipe).buffers pipe).calls[0]? = some (.reading 1) := by
    rw [readingWorld, usesWorld_buffers]
    rfl
  have withholds (fds : FdWorld) : Withholds ((readingWorld fds pipe).buffers pipe) true := by
    rw [readingWorld, usesWorld_buffers]
    rfl
  refine ⟨_, _, pipe, fd, reached, ?_, closes, ?_⟩
  · refine (pipe_call_waits_iff reached rfl (inLoop fds) rfl).1.mpr ⟨withholds fds, ?_⟩
    exact (PipeWorldSound.of_reachable reached).referenced_iff.mpr strong
  · refine
      (pipe_call_waits_iff reachedAfter rfl (inLoop _) rfl).2 (withholds _) fun referenced => ?_
    have positive := (PipeWorldSound.of_reachable reachedAfter).referenced_iff.mp referenced
    exact Nat.ne_of_gt positive dropped

private theorem exists_exited :
    ∃ world, (pipeWorldMachine allocator).Reachable world ∧
      world.fds.processes = [⟨0, 1⟩, ⟨1, 0⟩] := by
  have stepped :
      fdNext allocator (pipedFds allocator) (.exit 1) =
        some (doExit (pipedFds allocator) 1 ⟨1, 1⟩) := by
    rw [fdNext, pipedFds_running, Option.map_some]
  have exited :
      (pipeWorldMachine allocator).Reachable
        (quietWorld (doExit (pipedFds allocator) 1 ⟨1, 1⟩) []) := by
    refine @quietWorld_step _ _ _ (.exit 1) pipedWorld_reachable ?_ stepped
    intro pid isActor
    obtain rfl := Option.some.inj isActor
    rw [pipedFds_running]
    rfl
  have sound := PipeWorldSound.of_reachable (@pipedWorld_reachable allocator)
  have found : (pipedFds allocator).processes[1]? = some ⟨1, 1⟩ := by
    rw [pipedFds_processes]
    rfl
  refine ⟨_, exited, ?_⟩
  have processes := (SoundHolding.doExit_last_tables sound.descriptors found rfl).1
  change (doExit (pipedFds allocator) 1 ⟨1, 1⟩).processes = _
  refine processes.trans ?_
  change (pipedFds allocator).processes.set 1 _ = _
  rw [pipedFds_processes]
  rfl

theorem all_references_dropped_exited :
    ∃ world, (pipeWorldMachine (.smallest _ _)).Reachable world ∧
      world.fds.processes = [⟨0, 1⟩, ⟨1, 0⟩] ∧
      world.uses = [] ∧ world.fds.strong = bootWorld.strong ∧
      ∀ pipe, world.fds.bufferStrong pipe = 0 := by
  obtain ⟨world, reached, processes⟩ := @exists_exited (.smallest _ _)
  refine ⟨world, reached, processes, all_references_dropped reached ?_⟩
  intro pid process isUser found
  rw [processes] at found
  match pid, isUser, found with
  | 1, _, found => rw [← Option.some.inj found]

end Runs

end Vegar.Task

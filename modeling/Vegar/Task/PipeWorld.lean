import Vegar.File.PipeStream
import Vegar.Task.Descriptors

/-!
# Pipes between processes

The descriptor tables of all processes together with the buffers of all
pipes.  `sys_read` and `sys_write` clone the `Arc` of a file out of a table,
run `Pipe::read` or `Pipe::write` through the clone and drop it when the call
returns.  Seen through one pipe, the system is a run of `pipeMachine`.
-/

namespace Vegar.File

def PipeCall.loopsOn : PipeCall → Bool → Bool
  | .reading _, readable => readable
  | .writing _, readable => !readable
  | _, _ => false

theorem WriteProgress.nothing (buf : List UInt8) : 0 ≤ buf.length := Nat.zero_le _

theorem PipeCall.loopsOn_true (call : PipeCall) : call.loopsOn true = call.isReading := by
  cases call <;> rfl

theorem PipeCall.loopsOn_false (call : PipeCall) : call.loopsOn false = call.isWriting := by
  cases call <;> rfl

end Vegar.File

namespace Vegar.Task

open Vegar.Lib Vegar.File

structure PipeBuffer where
  ring : PipeRingBuffer
  calls : List PipeCall
  appended : List (Nat × UInt8)
  deliveries : List (Nat × List UInt8)

namespace PipeBuffer

def new : PipeBuffer := ⟨.new, [], [], []⟩

/-- A call of `Pipe::read` or `Pipe::write` begins. -/
def start (buffer : PipeBuffer) (call : PipeCall) : PipeBuffer :=
  { buffer with calls := buffer.calls ++ [call] }

/-- The next lock-protected section of a call, which asks `Pipe::closed`
while it holds the lock. -/
def lockSection (buffer : PipeBuffer) (closed : Bool) (call : Nat) :
    Option PipeBuffer :=
  match buffer.calls[call]? with
  | some (.reading len) =>
      match readSection buffer.ring closed len with
      | (none, ring) => some { buffer with ring := ring }
      | (some bytes, ring) =>
          some { buffer with
            ring := ring
            calls := buffer.calls.set call (.readReturned len (.ok bytes))
            deliveries := buffer.deliveries ++ [(call, bytes)] }
  | some (.writing progress) =>
      let outcome := writeSection buffer.ring closed progress
      some { buffer with
        ring := outcome.2.ring
        calls := buffer.calls.set call <|
            match outcome.1 with
            | none => .writing outcome.2.progress
            | some size => .writeReturned progress.buf (.ok size)
        appended := buffer.appended ++ outcome.2.stored.map fun byte => (call, byte) }
  | _ => none

def toState (buffer : PipeBuffer) (readEnd writeEnd : Bool) : PipeState where
  ring := buffer.ring
  readEnd := readEnd
  writeEnd := writeEnd
  calls := buffer.calls
  appended := buffer.appended
  deliveries := buffer.deliveries

end PipeBuffer

/-- A call of a thread that works on a file through a clone of its `Arc`.
`call` is the number of its `Pipe::read` or `Pipe::write` among the calls on
the pipe, once it has begun. -/
structure FileUse where
  pid : Nat
  ref : FileRef
  call : Option Nat

structure PipeWorld where
  fds : FdWorld
  buffers : Nat → PipeBuffer
  uses : List FileUse

inductive PipeWorldAction where
  /-- A call on a table, or a process that starts, clones or exits. -/
  | descriptors (action : FdAction)
  /-- `get_file_like`: the call holds a clone from now on. -/
  | getFileLike (pid : Nat) (fd : BitVec 32)
  /-- `Pipe::read` through the clone, up to its loop. -/
  | read (use len : Nat)
  /-- `Pipe::write` through the clone, up to its loop. -/
  | write (use : Nat) (buf : List UInt8)
  /-- The next lock-protected section of the call. -/
  | lockSection (use : Nat)
  /-- The call returns and drops its clone. -/
  | dropFile (use : Nat)

def FdAction.actor : FdAction → Option Nat
  | .runUserApp => none
  | .openFile pid => some pid
  | .pipe2 pid _ => some pid
  | .dup pid _ => some pid
  | .dup2 pid _ _ => some pid
  | .fcntl pid _ _ => some pid
  | .close pid _ => some pid
  | .clone pid _ _ => some pid
  | .exit pid => some pid

namespace PipeWorld

def boot : PipeWorld := ⟨bootWorld, fun _ => .new, []⟩

def busy (world : PipeWorld) (pid : Nat) : Nat := (world.uses.map FileUse.pid).count pid

def freeProcess (world : PipeWorld) (pid : Nat) : Option FdProcess :=
  (runningProcess world.fds pid).filter fun process =>
    world.busy pid < process.threads

def withBuffer (world : PipeWorld) (pipe : Nat) (buffer : PipeBuffer)
    (uses : List FileUse) : PipeWorld :=
  { world with
    buffers := Function.update world.buffers pipe buffer
    uses := uses }

/-- A call on an end of a pipe gets to `Pipe::read` or `Pipe::write`. -/
def startCall (world : PipeWorld) (use pid pipe : Nat) (readable : Bool)
    (call : PipeCall) : PipeWorld :=
  let buffer := world.buffers pipe
  world.withBuffer pipe (buffer.start call)
    (world.uses.set use ⟨pid, .pipeEnd pipe readable, some buffer.calls.length⟩)

/-- The call is not inside of a loop of `Pipe::read` or `Pipe::write`. -/
def hasReturned (world : PipeWorld) (use : FileUse) : Bool :=
  match use.ref, use.call with
  | .pipeEnd pipe _, some call =>
      ((world.buffers pipe).calls[call]?).all fun current =>
        !(current.loopsOn true || current.loopsOn false)
  | _, _ => true

end PipeWorld

def pipeWorldNext (allocator : IdAllocator FileRef axFileLimit)
    (world : PipeWorld) : PipeWorldAction → Option PipeWorld
  | .descriptors action =>
      if action.actor.all fun pid => (world.freeProcess pid).isSome then
        (fdNext allocator world.fds action).map fun fds =>
          { world with fds := fds }
      else none
  | .getFileLike pid fd => (world.freeProcess pid).map fun process =>
      match world.fds.getFileLike process.table fd with
      | (.error _, fds) => { world with fds := fds }
      | (.ok ref, fds) =>
          { world with fds := fds, uses := world.uses ++ [⟨pid, ref, none⟩] }
  | .read use len =>
      match world.uses[use]? with
      | some ⟨pid, .pipeEnd pipe readable, none⟩ =>
          some (world.startCall use pid pipe readable (match readEntry readable len with
            | some result => .readReturned len result
            | none => .reading len))
      | _ => none
  | .write use buf =>
      match world.uses[use]? with
      | some ⟨pid, .pipeEnd pipe readable, none⟩ =>
          some (world.startCall use pid pipe readable
            (match writeEntry readable (world.fds.closed pipe) buf with
            | some result => .writeReturned buf result
            | none => .writing ⟨buf, 0, WriteProgress.nothing buf⟩))
      | _ => none
  | .lockSection use =>
      match world.uses[use]? with
      | some ⟨_, .pipeEnd pipe _, some call⟩ =>
          ((world.buffers pipe).lockSection (world.fds.closed pipe) call).map
            fun buffer => world.withBuffer pipe buffer world.uses
      | _ => none
  | .dropFile use =>
      match world.uses[use]? with
      | some current =>
          if world.hasReturned current then
            some { world with
              fds := world.fds.release current.ref
              uses := world.uses.eraseIdx use }
          else none
      | none => none

def pipeWorldMachine (allocator : IdAllocator FileRef axFileLimit) :
    Machine PipeWorld PipeWorldAction where
  start world := world = .boot
  next := pipeWorldNext allocator

/-! ## One pipe of the system -/

namespace PipeWorld

def endAlive (world : PipeWorld) (pipe : Nat) (readable : Bool) : Bool :=
  0 < world.fds.strong (.pipeEnd pipe readable)

def pipeState (world : PipeWorld) (pipe : Nat) : PipeState :=
  (world.buffers pipe).toState (world.endAlive pipe true) (world.endAlive pipe false)

def held (world : PipeWorld) : List FileRef := world.uses.map FileUse.ref

section WithBuffer

variable {world : PipeWorld} {pipe : Nat} {buffer : PipeBuffer} {uses : List FileUse}

theorem withBuffer_self : (world.withBuffer pipe buffer uses).buffers pipe = buffer :=
  Function.update_self ..

theorem withBuffer_of_ne {asked : Nat} (different : asked ≠ pipe) :
    (world.withBuffer pipe buffer uses).buffers asked =
      world.buffers asked :=
  Function.update_of_ne different ..

theorem withBuffer_buffers (world : PipeWorld) (pipe : Nat) :
    world.withBuffer pipe (world.buffers pipe) world.uses = world := by
  rw [withBuffer, Function.update_eq_self]

end WithBuffer

def Referenced (world : PipeWorld) (ref : FileRef) : Prop :=
  (∃ table, LiveTable world.fds table ∧ ∃ id, (world.fds.tableAt table).get id = some ref) ∨
    ∃ use ∈ world.uses, use.ref = ref

end PipeWorld

/-! ### Dropping the ends of a pipe that stands for itself -/

def withEnd (state : PipeState) (readable alive : Bool) : PipeState :=
  if readable then { state with readEnd := alive }
  else { state with writeEnd := alive }

private theorem reachable_withEnd {state : PipeState} (reached : pipeMachine.Reachable state)
    {readable alive : Bool}
    (kept : alive = true → state.endAlive readable = true)
    (unused : alive = false → ∀ call ∈ state.calls, call.loopsOn readable = false) :
    pipeMachine.Reachable (withEnd state readable alive) := by
  by_cases same : alive = state.endAlive readable
  · have unchanged : withEnd state readable alive = state := by
      rw [same]
      cases readable <;> rfl
    rw [unchanged]
    exact reached
  · cases alive with
    | true => exact absurd (kept rfl).symm same
    | false =>
        have wasAlive : state.endAlive readable = true := by
          simpa using Ne.symm same
        have noUser := unused rfl
        apply reached.step (.drop readable)
        cases readable with
        | true =>
            simp only [PipeCall.loopsOn_true] at noUser
            simp_all [pipeMachine, pipeNext, withEnd, PipeState.endAlive]
        | false =>
            simp only [PipeCall.loopsOn_false] at noUser
            simp_all [pipeMachine, pipeNext, withEnd, PipeState.endAlive]

/-! ### Sections of calls -/

section LockSection

variable {buffer after : PipeBuffer} {call : Nat}

/-- A section is the one of the pipe that stands for itself, with what
`Pipe::closed` says there. -/
theorem pipeNext_lockSection (buffer : PipeBuffer) (readEnd writeEnd : Bool) (call : Nat) :
    pipeNext (buffer.toState readEnd writeEnd) (.lockSection call) =
      (buffer.lockSection (buffer.toState readEnd writeEnd).closed call).map
        fun after => after.toState readEnd writeEnd := by
  simp only [pipeNext, PipeBuffer.lockSection, PipeBuffer.toState]
  cases found : buffer.calls[call]? with
  | none => rfl
  | some current =>
      cases current with
      | reading len =>
          simp only
          rcases readSection buffer.ring _ len with ⟨_ | bytes, ring⟩ <;> rfl
      | writing progress => rfl
      | readReturned len result => rfl
      | writeReturned buf result => rfl

theorem lockSection_calls {closed : Bool} (taken : buffer.lockSection closed call = some after) :
    ∃ current changed,
      buffer.calls[call]? = some current ∧ after.calls = buffer.calls.set call changed ∧
        ∀ readable, changed.loopsOn readable = true → current.loopsOn readable = true := by
  unfold PipeBuffer.lockSection at taken
  cases found : buffer.calls[call]? with
  | none =>
      simp [found] at taken
  | some current =>
      obtain ⟨inside, isCurrent⟩ := List.getElem?_eq_some_iff.mp found
      cases current with
      | reading len =>
          simp only [found] at taken
          split at taken
          · obtain rfl := Option.some.inj taken
            refine ⟨_, .reading len, rfl, ?_, fun _ loops => loops⟩
            rw [← isCurrent, List.set_getElem_self inside]
          · obtain rfl := Option.some.inj taken
            exact ⟨_, _, rfl, rfl, fun _ loops => nomatch loops⟩
      | writing progress =>
          simp only [found, Option.some.injEq] at taken
          subst taken
          refine ⟨_, _, rfl, rfl, ?_⟩
          intro readable loops
          split at loops
          · exact loops
          · cases loops
      | readReturned len result =>
          simp [found] at taken
      | writeReturned buf result =>
          simp [found] at taken

end LockSection

/-! ### Descriptor steps and dropped ends -/

section DescriptorSteps

variable {held : List FileRef} {world : FdWorld}

private theorem initNew_staysDropped (copied : FdWorld × FdSlots) {bound : Nat} :
    FdWorld.StaysDropped bound copied.1 (initNew copied) :=
  .of_counters_eq rfl rfl

private theorem spawnCopied_staysDropped (sound : SoundHolding held world) {table : Nat}
    (known : table < world.tables.length) :
    FdWorld.StaysDropped world.pipes world (spawnCopied world table) := by
  obtain ⟨-, -, -, stays, -⟩ := FdWorld.copyInner_spec sound.balanced known
  exact stays.trans (initNew_staysDropped _)

private theorem sysClone_staysDropped
    (sound : SoundHolding held world) {pid : Nat} {process : FdProcess}
    (known : process.table < world.tables.length)
    (flags : BitVec 32) (env : CloneEnv) :
    FdWorld.StaysDropped world.pipes world (sysClone world pid process flags env) := by
  unfold sysClone
  rcases planClone flags env with error | (_ | (_ | _))
  · exact .refl world
  · exact .of_counters_eq rfl rfl
  · exact spawnCopied_staysDropped sound known
  · exact .of_counters_eq rfl rfl

private theorem doExit_staysDropped
    (sound : SoundHolding held world) (pid : Nat) {process : FdProcess}
    (known : process.table < world.tables.length) :
    FdWorld.StaysDropped world.pipes world (doExit world pid process) := by
  have threadLeft :
      FdWorld.StaysDropped world.pipes world (setThreads world pid process (process.threads - 1)) :=
    .of_counters_eq rfl rfl
  have balanced : (setThreads world pid process (process.threads - 1)).Balanced held [] :=
    sound.balanced.withProcesses _
  unfold doExit
  split
  · exact threadLeft.trans (FdWorld.clear_spec balanced known).1.stays
  · exact threadLeft

theorem fdStep_staysDropped (sound : SoundHolding held world) {action : FdAction} {target : FdWorld}
    (stepped : FdStep held world action target) :
    FdWorld.StaysDropped world.pipes world target := by
  have known {pid : Nat} {process : FdProcess} (found : world.processes[pid]? = some process) :
      process.table < world.tables.length :=
    sound.tablesExist _ (List.mem_of_getElem? found)
  cases stepped with
  | start found => exact spawnCopied_staysDropped sound (known found)
  | call _ leaves => exact leaves.stays
  | clone running flags env =>
      obtain ⟨-, found, -⟩ := runningProcess_eq_some.mp running
      exact sysClone_staysDropped sound (known found) flags env
  | exit running =>
      obtain ⟨-, found, -⟩ := runningProcess_eq_some.mp running
      exact doExit_staysDropped sound _ (known found)

end DescriptorSteps

/-! ## The invariant of every run -/

/-- The counters agree with the slots and the calls, a call inside of a loop
holds the end it works on, and every pipe is as if it stood for itself. -/
structure PipeWorldSound (world : PipeWorld) : Prop where
  descriptors : SoundHolding world.held world.fds
  inLoop :
    ∀ pipe call current readable,
      (world.buffers pipe).calls[call]? = some current →
        current.loopsOn readable = true →
          ∃ use ∈ world.uses, use.ref = .pipeEnd pipe readable ∧ use.call = some call
  fresh : ∀ pipe, world.fds.pipes ≤ pipe → world.buffers pipe = .new
  reached : ∀ pipe, pipe < world.fds.pipes → pipeMachine.Reachable (world.pipeState pipe)

theorem closed_pipeState {world : PipeWorld} {held : List FileRef}
    (balanced : world.fds.Balanced held []) (pipe : Nat) :
    (world.pipeState pipe).closed = world.fds.closed pipe := by
  have liveEnd_eq :
      ∀ readable, world.fds.liveEnd pipe readable = (world.endAlive pipe readable).toNat := by
    intro readable
    rw [FdWorld.liveEnd, PipeWorld.endAlive]
    split <;> simp_all
  have buffers := balanced.buffers pipe
  rw [List.count_nil, Nat.add_zero, liveEnd_eq, liveEnd_eq] at buffers
  rw [FdWorld.closed, buffers]
  rfl

theorem strong_pos_of_use {world : PipeWorld} (balanced : world.fds.Balanced world.held [])
    {use : FileUse} (member : use ∈ world.uses) :
    0 < world.fds.strong use.ref := by
  have counted := balanced.counted use.ref
  have inHeld : use.ref ∈ world.held := List.mem_map_of_mem member
  have positive := List.count_pos_iff.mpr inHeld
  omega

namespace PipeWorldSound

variable {world target : PipeWorld}

private theorem exists_source (sound : PipeWorldSound world)
    (sameBuffers : target.buffers = world.buffers)
    (stays : FdWorld.StaysDropped world.fds.pipes world.fds target.fds)
    (pipe : Nat) :
    ∃ state, pipeMachine.Reachable state ∧ state.calls = (world.buffers pipe).calls ∧
      withEnd (withEnd state true (target.endAlive pipe true)) false (target.endAlive pipe false) =
        target.pipeState pipe ∧
      ∀ readable, target.endAlive pipe readable = true → state.endAlive readable = true := by
  by_cases old : pipe < world.fds.pipes
  · refine ⟨_, sound.reached pipe old, rfl, ?_, ?_⟩
    · rw [PipeWorld.pipeState, PipeWorld.pipeState, sameBuffers]
      rfl
    · intro readable alive
      have wasAlive : world.endAlive pipe readable = true := by
        by_contra gone
        have dropped : world.fds.strong (.pipeEnd pipe readable) = 0 := by
          simpa [PipeWorld.endAlive] using gone
        have stillDropped := stays.dropped pipe readable old dropped
        simp [PipeWorld.endAlive, stillDropped] at alive
      cases readable <;> exact wasAlive
  · have isNew := sound.fresh pipe (Nat.le_of_not_lt old)
    refine ⟨.new, .start rfl, ?_, ?_, ?_⟩
    · rw [isNew]
      rfl
    · rw [PipeWorld.pipeState, sameBuffers, isNew]
      rfl
    · intro readable _
      cases readable <;> rfl

theorem referencesChanged (sound : PipeWorldSound world)
    (sameBuffers : target.buffers = world.buffers)
    (descriptors : SoundHolding target.held target.fds)
    (stays : FdWorld.StaysDropped world.fds.pipes world.fds target.fds)
    (inLoop :
      ∀ pipe call current readable,
        (target.buffers pipe).calls[call]? = some current →
          current.loopsOn readable = true →
            ∃ use ∈ target.uses, use.ref = .pipeEnd pipe readable ∧ use.call = some call) :
    PipeWorldSound target where
  descriptors := descriptors
  inLoop := inLoop
  fresh pipe unused := by
    rw [sameBuffers]
    exact sound.fresh pipe (Nat.le_trans stays.pipes unused)
  reached pipe made := by
    have unused :
        ∀ readable, target.endAlive pipe readable = false →
          ∀ current ∈ (world.buffers pipe).calls, current.loopsOn readable = false := by
      intro readable gone current member
      rw [← sameBuffers] at member
      obtain ⟨call, found⟩ := List.mem_iff_getElem?.mp member
      by_contra looping
      obtain ⟨use, inUses, isEnd, -⟩ :=
        inLoop pipe call current readable found (by simpa using looping)
      have alive := strong_pos_of_use descriptors.balanced inUses
      rw [isEnd] at alive
      simp [PipeWorld.endAlive, alive] at gone
    obtain ⟨state, reachedState, calls, isTarget, kept⟩ :=
      sound.exists_source sameBuffers stays pipe
    rw [← isTarget]
    have readDropped := reachable_withEnd reachedState (kept true) (by
        rw [calls]
        exact unused true)
    exact reachable_withEnd readDropped (kept false) (by
      intro gone
      change ∀ call ∈ state.calls, _
      rw [calls]
      exact unused false gone)

theorem bufferChanged (sound : PipeWorldSound world) {pipe : Nat} {buffer : PipeBuffer}
    {action : PipeAction} {uses : List FileUse}
    (made : pipe < world.fds.pipes)
    (sameRefs : uses.map FileUse.ref = world.held)
    (keptUses : ∀ use ∈ world.uses, ∀ call, use.call = some call → use ∈ uses)
    (stepped :
      pipeNext (world.pipeState pipe) action =
        some (buffer.toState (world.endAlive pipe true) (world.endAlive pipe false)))
    (looping :
      ∀ call current readable, buffer.calls[call]? = some current →
        current.loopsOn readable = true →
          (∃ before, (world.buffers pipe).calls[call]? = some before ∧
              before.loopsOn readable = true) ∨
            ∃ use ∈ uses, use.ref = .pipeEnd pipe readable ∧ use.call = some call) :
    PipeWorldSound (world.withBuffer pipe buffer uses) where
  descriptors := by
    rw [PipeWorld.held]
    change SoundHolding (uses.map FileUse.ref) world.fds
    rw [sameRefs]
    exact sound.descriptors
  inLoop asked call current readable found loops := by
    have fromBefore :
        ∀ before, (world.buffers asked).calls[call]? = some before →
          before.loopsOn readable = true →
            ∃ use ∈ uses, use.ref = .pipeEnd asked readable ∧ use.call = some call := by
      intro before wasThere didLoop
      obtain ⟨use, member, isEnd, isCall⟩ :=
        sound.inLoop asked call before readable wasThere didLoop
      exact ⟨use, keptUses use member call isCall, isEnd, isCall⟩
    by_cases same : asked = pipe
    · subst same
      rw [PipeWorld.withBuffer_self] at found
      rcases looping call current readable found loops with ⟨before, wasThere, didLoop⟩ | started
      · exact fromBefore before wasThere didLoop
      · exact started
    · rw [PipeWorld.withBuffer_of_ne same] at found
      exact fromBefore current found loops
  fresh asked unused := by
    have different : asked ≠ pipe := by
      rintro rfl
      exact absurd made (Nat.not_lt.mpr unused)
    rw [PipeWorld.withBuffer_of_ne different]
    exact sound.fresh asked unused
  reached asked known := by
    by_cases same : asked = pipe
    · subst same
      have isStep := (sound.reached asked made).step action stepped
      rw [PipeWorld.pipeState, PipeWorld.withBuffer_self]
      exact isStep
    · rw [PipeWorld.pipeState, PipeWorld.withBuffer_of_ne same]
      exact sound.reached asked known

/-! ### The steps -/

section Steps

variable {allocator : IdAllocator FileRef axFileLimit}

theorem boot : PipeWorldSound .boot where
  descriptors := DescriptorsSound.boot.holding
  inLoop := by
    intro pipe call current readable found
    cases found
  fresh _ _ := rfl
  reached pipe made := absurd made (Nat.not_lt_zero pipe)

theorem descriptorsStep (sound : PipeWorldSound world) {action : FdAction} {fds : FdWorld}
    (stepped : fdNext allocator world.fds action = some fds) :
    PipeWorldSound { world with fds := fds } :=
  sound.referencesChanged rfl (sound.descriptors.next stepped)
    (fdStep_staysDropped sound.descriptors (sound.descriptors.fdStep_of_next stepped)) sound.inLoop

theorem getFileLikeStep (sound : PipeWorldSound world) {pid : Nat} {process : FdProcess}
    (running : runningProcess world.fds pid = some process)
    {fd : BitVec 32} {ref : FileRef} {fds : FdWorld}
    (got : world.fds.getFileLike process.table fd = (.ok ref, fds)) :
    PipeWorldSound { world with fds := fds, uses := world.uses ++ [⟨pid, ref, none⟩] } := by
  obtain ⟨-, found, alive⟩ := runningProcess_eq_some.mp running
  have live : LiveTable world.fds process.table := ⟨process, List.mem_of_getElem? found, alive, rfl⟩
  have known := sound.descriptors.tablesExist process (List.mem_of_getElem? found)
  have taken := FdWorld.getFileLike_ok world.fds.pipes sound.descriptors.balanced known got
  have cloned := sound.descriptors.leaves live taken
  have reordered :
      (ref :: world.held).Perm ((world.uses ++ [FileUse.mk pid ref none]).map FileUse.ref) := by
    rw [List.map_append]
    exact (List.perm_append_singleton ref world.held).symm
  refine sound.referencesChanged rfl (cloned.perm reordered) taken.stays ?_
  intro pipe call current readable isCall loops
  obtain ⟨use, member, facts⟩ := sound.inLoop pipe call current readable isCall loops
  exact ⟨use, List.mem_append_left _ member, facts⟩

theorem dropFileStep (sound : PipeWorldSound world) {index : Nat} {use : FileUse}
    (isUse : world.uses[index]? = some use)
    (returned : world.hasReturned use = true) :
    PipeWorldSound
      { world with
        fds := world.fds.release use.ref
        uses := world.uses.eraseIdx index } := by
  obtain ⟨inside, atIndex⟩ := List.getElem?_eq_some_iff.mp isUse
  have reordered : world.held.Perm (use.ref :: (world.uses.eraseIdx index).map FileUse.ref) := by
    have usesReordered := List.getElem_cons_eraseIdx_perm inside
    rw [atIndex] at usesReordered
    exact (usesReordered.map FileUse.ref).symm
  refine sound.referencesChanged rfl (sound.descriptors.perm reordered).release
    (FdWorld.release_staysDropped world.fds use.ref) ?_
  intro pipe call current readable isCall loops
  obtain ⟨user, member, isEnd, userCall⟩ := sound.inLoop pipe call current readable isCall loops
  obtain ⟨position, atPosition⟩ := List.mem_iff_getElem?.mp member
  have different : position ≠ index := by
    rintro rfl
    obtain rfl := Option.some.inj (atPosition.symm.trans isUse)
    rw [PipeWorld.hasReturned, isEnd, userCall] at returned
    simp only [isCall, Option.all_some] at returned
    cases readable <;> simp [loops] at returned
  exact
    ⟨user, List.mem_eraseIdx_iff_getElem?.mpr ⟨position, different, atPosition⟩, isEnd, userCall⟩

theorem alive_of_use (sound : PipeWorldSound world) {index pid pipe : Nat} {readable : Bool}
    {call : Option Nat}
    (isUse : world.uses[index]? = some ⟨pid, .pipeEnd pipe readable, call⟩) :
    pipe < world.fds.pipes ∧ world.endAlive pipe readable = true := by
  have positive := strong_pos_of_use sound.descriptors.balanced (List.mem_of_getElem? isUse)
  exact ⟨sound.descriptors.balanced.known_of_strong_pos positive, decide_eq_true positive⟩

theorem startCallStep (sound : PipeWorldSound world) {index pid pipe : Nat} {readable : Bool}
    (isUse : world.uses[index]? = some ⟨pid, .pipeEnd pipe readable, none⟩)
    {action : PipeAction} {call : PipeCall}
    (stepped : pipeNext (world.pipeState pipe) action = some ((world.pipeState pipe).start call))
    (onOwnEnd : ∀ asked, call.loopsOn asked = true → asked = readable) :
    PipeWorldSound (world.startCall index pid pipe readable call) := by
  obtain ⟨inside, atIndex⟩ := List.getElem?_eq_some_iff.mp isUse
  refine sound.bufferChanged (sound.alive_of_use isUse).1 ?_ ?_ stepped ?_
  · exact Roster.map_set_of_same isUse rfl
  · intro use member number isCall
    obtain ⟨position, atPosition⟩ := List.mem_iff_getElem?.mp member
    have different : index ≠ position := by
      rintro rfl
      obtain rfl := Option.some.inj (atPosition.symm.trans isUse)
      cases isCall
    rw [List.mem_iff_getElem?]
    exact ⟨position, (List.getElem?_set_ne different).trans atPosition⟩
  · intro number current asked found loops
    rcases Roster.old_or_added found with old | ⟨atEnd, isNew⟩
    · exact Or.inl ⟨current, old, loops⟩
    · subst isNew
      refine Or.inr ⟨_, List.mem_set inside _, ?_, ?_⟩
      · rw [onOwnEnd asked loops]
      · rw [atEnd]

theorem readStep (sound : PipeWorldSound world) {index pid pipe : Nat} {readable : Bool}
    (isUse : world.uses[index]? = some ⟨pid, .pipeEnd pipe readable, none⟩)
    (len : Nat) :
    PipeWorldSound
      (world.startCall index pid pipe readable (match readEntry readable len with
        | some result => .readReturned len result
        | none => .reading len)) := by
  have alive : (world.pipeState pipe).endAlive readable = true := by
    have isAlive := (sound.alive_of_use isUse).2
    cases readable <;> exact isAlive
  refine @startCallStep world sound index pid pipe readable isUse (.read readable len) _ ?_ ?_
  · simp only [pipeNext, alive, if_true]
    cases readEntry readable len <;> rfl
  · intro asked loops
    cases entered : readEntry readable len with
    | some result =>
        rw [entered] at loops
        cases loops
    | none =>
        rw [entered] at loops
        cases readable with
        | true => exact loops
        | false => cases entered

theorem writeStep (sound : PipeWorldSound world) {index pid pipe : Nat} {readable : Bool}
    (isUse : world.uses[index]? = some ⟨pid, .pipeEnd pipe readable, none⟩)
    (buf : List UInt8) :
    PipeWorldSound
      (world.startCall index pid pipe readable
        (match writeEntry readable (world.fds.closed pipe) buf with
        | some result => .writeReturned buf result
        | none => .writing ⟨buf, 0, WriteProgress.nothing buf⟩)) := by
  have alive : (world.pipeState pipe).endAlive readable = true := by
    have isAlive := (sound.alive_of_use isUse).2
    cases readable <;> exact isAlive
  have isClosed := closed_pipeState sound.descriptors.balanced pipe
  refine @startCallStep world sound index pid pipe readable isUse (.write readable buf) _ ?_ ?_
  · simp only [pipeNext, alive, if_true, isClosed]
    cases writeEntry readable (world.fds.closed pipe) buf <;> rfl
  · intro asked loops
    cases entered : writeEntry readable (world.fds.closed pipe) buf with
    | some result =>
        rw [entered] at loops
        cases loops
    | none =>
        rw [entered] at loops
        cases readable with
        | true => cases entered
        | false => simpa [PipeCall.loopsOn] using loops

theorem lockSectionStep (sound : PipeWorldSound world) {index pid pipe call : Nat}
    {readable : Bool} {buffer : PipeBuffer}
    (isUse : world.uses[index]? = some ⟨pid, .pipeEnd pipe readable, some call⟩)
    (taken : (world.buffers pipe).lockSection (world.fds.closed pipe) call = some buffer) :
    PipeWorldSound (world.withBuffer pipe buffer world.uses) := by
  have stepped :
      pipeNext (world.pipeState pipe) (.lockSection call) =
        some (buffer.toState (world.endAlive pipe true) (world.endAlive pipe false)) := by
    have isClosed := closed_pipeState sound.descriptors.balanced pipe
    rw [PipeWorld.pipeState] at isClosed ⊢
    rw [pipeNext_lockSection, isClosed, taken]
    rfl
  refine sound.bufferChanged (sound.alive_of_use isUse).1 rfl
    (fun _ member _ _ => member) stepped ?_
  intro number current asked found loops
  obtain ⟨before, changed, wasThere, isAfter, stillLoops⟩ := lockSection_calls taken
  rw [isAfter] at found
  rcases Roster.replaced_or_same found with ⟨isCall, isChanged⟩ | ⟨-, other⟩
  · rw [isChanged] at loops
    rw [isCall]
    exact Or.inl ⟨before, wasThere, stillLoops asked loops⟩
  · exact Or.inl ⟨current, other, loops⟩

theorem next (sound : PipeWorldSound world) {action : PipeWorldAction}
    (stepped : pipeWorldNext allocator world action = some target) :
    PipeWorldSound target := by
  cases action with
  | descriptors action =>
      obtain ⟨-, taken⟩ := Option.ite_none_right_eq_some.mp stepped
      obtain ⟨fds, next, rfl⟩ := Option.map_eq_some_iff.mp taken
      exact sound.descriptorsStep next
  | getFileLike pid fd =>
      obtain ⟨process, free, rfl⟩ := Option.map_eq_some_iff.mp stepped
      have running := (Option.filter_eq_some_iff.mp free).1
      cases got : world.fds.getFileLike process.table fd with
      | mk result fds =>
          cases result with
          | error error =>
              rw [FdWorld.getFileLike_error got]
              exact sound
          | ok ref => exact sound.getFileLikeStep running got
  | read index len =>
      simp only [pipeWorldNext] at stepped
      split at stepped
      · next isUse =>
          obtain rfl := Option.some.inj stepped
          exact sound.readStep isUse len
      · cases stepped
  | write index buf =>
      simp only [pipeWorldNext] at stepped
      split at stepped
      · next isUse =>
          obtain rfl := Option.some.inj stepped
          exact sound.writeStep isUse buf
      · cases stepped
  | lockSection index =>
      simp only [pipeWorldNext] at stepped
      split at stepped
      · next isUse =>
          obtain ⟨buffer, taken, rfl⟩ := Option.map_eq_some_iff.mp stepped
          exact sound.lockSectionStep isUse taken
      · cases stepped
  | dropFile index =>
      simp only [pipeWorldNext] at stepped
      split at stepped
      · next isUse =>
          obtain ⟨returned, isTarget⟩ := Option.ite_none_right_eq_some.mp stepped
          obtain rfl := Option.some.inj isTarget
          exact sound.dropFileStep isUse returned
      · cases stepped

end Steps

theorem of_reachable {allocator : IdAllocator FileRef axFileLimit}
    (reached : (pipeWorldMachine allocator).Reachable world) :
    PipeWorldSound world := by
  refine Machine.Reachable.invariant ?_ ?_ reached
  · intro start isBoot
    rw [show start = .boot from isBoot]
    exact boot
  · intro source action target _ sound stepped
    exact sound.next stepped

end PipeWorldSound

end Vegar.Task

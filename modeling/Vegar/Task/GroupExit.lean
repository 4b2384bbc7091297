import Vegar.Lib.Machine
import Mathlib.Data.Fintype.Basic

/-!
# Exit of a group of threads

`do_exit`, `sys_exit` and `sys_exit_group` of `api/src/imp/task/exit.rs`.  The
caller of `sys_exit_group` records its code and marks the group as exited in a
later step; until then every other thread records its own code over it.
-/

namespace Vegar.Task

open Vegar.Lib

/-- How far a thread is in `do_exit`. -/
inductive DoExitPhase where
  | running
  /-- Before `thread.exit(exit_code)`. -/
  | entering (exitCode : BitVec 32) (groupExit : Bool)
  /-- The last thread, before `process.exit()`. -/
  | lastOut (groupExit : Bool)
  /-- Before the test of `group_exit && !process.is_group_exited()`. -/
  | testing (groupExit : Bool)
  /-- Before `process.group_exit()`. -/
  | marking
  /-- While `SIGKILL` is sent to the threads. -/
  | killing
  | gone
  deriving DecidableEq, Repr

namespace DoExitPhase

/-- The thread is in `process.threads()`. -/
def isLive : DoExitPhase → Bool
  | running => true
  | entering _ _ => true
  | _ => false

def endsGroup : DoExitPhase → Bool
  | entering _ groupExit => groupExit
  | lastOut groupExit => groupExit
  | testing groupExit => groupExit
  | marking => true
  | killing => true
  | _ => false

end DoExitPhase

/-- A thread, and whether it has a `SIGKILL` pending. -/
structure ExitThread where
  phase : DoExitPhase
  killed : Bool
  deriving DecidableEq, Repr

structure GroupState (count : Nat) where
  threads : Fin count → ExitThread
  exitCode : BitVec 32
  groupExited : Bool
  zombie : Bool

namespace GroupState

variable {count : Nat}

def setPhase (state : GroupState count) (index : Fin count)
    (phase : DoExitPhase) : GroupState count :=
  { state with
    threads :=
      Function.update state.threads index { state.threads index with phase := phase } }

/-- `Thread::exit` of `axprocess`: it records the code unless the group is
marked, and tells whether the last thread has left. -/
def threadExit (state : GroupState count) (index : Fin count)
    (exitCode : BitVec 32) (groupExit : Bool) : GroupState count :=
  let recorded :=
    if state.groupExited then state else { state with exitCode := exitCode }
  let removed := recorded.setPhase index (.testing groupExit)
  if ∃ other, (removed.threads other).phase.isLive then removed
  else recorded.setPhase index (.lastOut groupExit)

def kill (state : GroupState count) (index : Fin count) :
    GroupState count :=
  { state with
    threads :=
      Function.update state.threads index { state.threads index with killed := true } }

end GroupState

/-- `SIGKILL` ends a thread with `do_exit(128 + signo, true)`. -/
def killCode : BitVec 32 := 128 + 9

inductive ExitStep (count : Nat) where
  | sysExit (index : Fin count) (exitCode : BitVec 32)
  | sysExitGroup
  | dieOfKill (index : Fin count)
  | threadExit (index : Fin count)
  | processExit (index : Fin count)
  | testGroup (index : Fin count)
  | groupExit (index : Fin count)
  | sendKill (index target : Fin count)
  | finish (index : Fin count)

/-- A process in which `caller` may call `sys_exit_group(code)`; the others
call `sys_exit`, or die of the signal. -/
def exitMachine {count : Nat} (caller : Fin count) (code : BitVec 32) :
    Machine (GroupState count) (ExitStep count) where
  start state := (∀ index, state.threads index = ⟨.running, false⟩) ∧
      state.groupExited = false ∧ state.zombie = false
  next
    | state, .sysExit index exitCode =>
        if index ≠ caller ∧ (state.threads index).phase = .running then
          some (state.setPhase index (.entering (exitCode <<< 8) false))
        else none
    | state, .sysExitGroup =>
        if (state.threads caller).phase = .running then
          some (state.setPhase caller (.entering (code <<< 8) true))
        else none
    | state, .dieOfKill index =>
        if (state.threads index).killed = true ∧ (state.threads index).phase = .running then
          some (state.setPhase index (.entering killCode true))
        else none
    | state, .threadExit index =>
        match (state.threads index).phase with
        | .entering exitCode groupExit =>
            some (state.threadExit index exitCode groupExit)
        | _ => none
    | state, .processExit index =>
        match (state.threads index).phase with
        | .lastOut groupExit =>
            some
              { state.setPhase index (.testing groupExit) with
                zombie := true }
        | _ => none
    | state, .testGroup index =>
        match (state.threads index).phase with
        | .testing groupExit =>
            if groupExit && !state.groupExited then
              some (state.setPhase index .marking)
            else some (state.setPhase index .gone)
        | _ => none
    | state, .groupExit index =>
        if (state.threads index).phase = .marking then
          some { state.setPhase index .killing with groupExited := true }
        else none
    | state, .sendKill index target =>
        if (state.threads index).phase = .killing ∧ (state.threads target).phase.isLive = true then
          some (state.kill target)
        else none
    | state, .finish index =>
        if (state.threads index).phase = .killing then
          some (state.setPhase index .gone)
        else none

/-- Between the `thread.exit` of the caller and its mark no other thread
records another code. -/
def CodeKept {count : Nat} (caller : Fin count) (code : BitVec 32)
    (state : GroupState count) : ExitStep count → Prop
  | .threadExit index =>
      index ≠ caller →
      (state.threads caller).phase.isLive = false →
      state.groupExited = false →
      ∀ exitCode groupExit, (state.threads index).phase = .entering exitCode groupExit →
        exitCode = code <<< 8
  | _ => True

/-! ## The code of the caller stays -/

section Runs

variable {count : Nat} {caller : Fin count} {code : BitVec 32} {state : GroupState count}

structure GroupInvariant (caller : Fin count) (code : BitVec 32)
    (state : GroupState count) : Prop where
  killedMarked : ∀ index, (state.threads index).killed = true → state.groupExited = true
  markedLeft : state.groupExited = true → (state.threads caller).phase.isLive = false
  leftRecorded : (state.threads caller).phase.isLive = false → state.exitCode = code <<< 8
  callerCode :
    ∀ exitCode groupExit,
      (state.threads caller).phase = .entering exitCode groupExit → exitCode = code <<< 8
  othersMarked :
    ∀ index, index ≠ caller →
      (state.threads index).phase.endsGroup = true → state.groupExited = true
  killingMarked : ∀ index, (state.threads index).phase = .killing → state.groupExited = true

@[simp]
theorem killed_setPhase (index other : Fin count) (phase : DoExitPhase) :
    ((state.setPhase index phase).threads other).killed = (state.threads other).killed := by
  by_cases same : other = index
  · subst same
    simp [GroupState.setPhase]
  · simp [GroupState.setPhase, same]

theorem phase_setPhase_self (index : Fin count) (phase : DoExitPhase) :
    ((state.setPhase index phase).threads index).phase = phase := by
  simp [GroupState.setPhase]

variable {index : Fin count}

theorem phase_setPhase_of_ne {other : Fin count} (different : other ≠ index) (phase : DoExitPhase) :
    ((state.setPhase index phase).threads other).phase = (state.threads other).phase := by
  simp [GroupState.setPhase, different]

variable {phase : DoExitPhase}

/-- A move of a thread: the caller does not come back, leaves only when its
code is recorded, and nobody ends the group before it is marked. -/
theorem GroupInvariant.setPhase (holds : GroupInvariant caller code state)
    (staysOut : index = caller → phase.isLive = true → (state.threads caller).phase.isLive = true)
    (recorded : index = caller → phase.isLive = false → state.exitCode = code <<< 8)
    (sameCode :
      index = caller → ∀ exitCode groupExit,
        phase = .entering exitCode groupExit → exitCode = code <<< 8)
    (marked : index ≠ caller → phase.endsGroup = true → state.groupExited = true)
    (killing : phase = .killing → state.groupExited = true) :
    GroupInvariant caller code (state.setPhase index phase) := by
  constructor
  · intro other killed
    rw [killed_setPhase] at killed
    exact holds.killedMarked other killed
  · intro groupMarked
    have left := holds.markedLeft groupMarked
    by_cases isCaller : index = caller
    · rw [← isCaller, phase_setPhase_self, Bool.eq_false_iff]
      intro live
      rw [staysOut isCaller live] at left
      cases left
    · rw [phase_setPhase_of_ne (Ne.symm isCaller)]
      exact left
  · intro left
    by_cases isCaller : index = caller
    · rw [← isCaller, phase_setPhase_self] at left
      exact recorded isCaller left
    · rw [phase_setPhase_of_ne (Ne.symm isCaller)] at left
      exact holds.leftRecorded left
  · intro exitCode groupExit isEntering
    by_cases isCaller : index = caller
    · rw [← isCaller, phase_setPhase_self] at isEntering
      exact sameCode isCaller exitCode groupExit isEntering
    · rw [phase_setPhase_of_ne (Ne.symm isCaller)] at isEntering
      exact holds.callerCode exitCode groupExit isEntering
  · intro other notCaller ends
    by_cases isIndex : other = index
    · subst isIndex
      rw [phase_setPhase_self] at ends
      exact marked notCaller ends
    · rw [phase_setPhase_of_ne isIndex] at ends
      exact holds.othersMarked other notCaller ends
  · intro other isKilling
    by_cases isIndex : other = index
    · subst isIndex
      rw [phase_setPhase_self] at isKilling
      exact killing isKilling
    · rw [phase_setPhase_of_ne isIndex] at isKilling
      exact holds.killingMarked other isKilling

theorem GroupInvariant.setOther (holds : GroupInvariant caller code state)
    (notCaller : index ≠ caller)
    (marked : phase.endsGroup = true → state.groupExited = true)
    (killing : phase = .killing → state.groupExited = true) :
    GroupInvariant caller code (state.setPhase index phase) :=
  holds.setPhase (fun same => (notCaller same).elim)
    (fun same => (notCaller same).elim) (fun same => (notCaller same).elim)
    (fun _ => marked) killing

theorem GroupInvariant.setOut (holds : GroupInvariant caller code state)
    (out : phase.isLive = false)
    (recorded : index = caller → state.exitCode = code <<< 8)
    (marked : index ≠ caller → phase.endsGroup = true → state.groupExited = true)
    (killing : phase = .killing → state.groupExited = true) :
    GroupInvariant caller code (state.setPhase index phase) := by
  apply holds.setPhase
  · intro _ live
    rw [out] at live
    cases live
  · exact fun isCaller _ => recorded isCaller
  · rintro - exitCode groupExit rfl
    cases out
  · exact marked
  · exact killing

theorem GroupInvariant.record (holds : GroupInvariant caller code state) {exitCode : BitVec 32}
    (kept : (state.threads caller).phase.isLive = false → exitCode = code <<< 8) :
    GroupInvariant caller code { state with exitCode := exitCode } where
  killedMarked := holds.killedMarked
  markedLeft := holds.markedLeft
  leftRecorded := kept
  callerCode := holds.callerCode
  othersMarked := holds.othersMarked
  killingMarked := holds.killingMarked

theorem threadExit_eq (index : Fin count) (exitCode : BitVec 32) (groupExit : Bool) :
    ∃ phase : DoExitPhase, phase.isLive = false ∧ phase.endsGroup = groupExit ∧ phase ≠ .killing ∧
      state.threadExit index exitCode groupExit =
        (if state.groupExited then state
          else { state with exitCode := exitCode }).setPhase index phase := by
  unfold GroupState.threadExit
  generalize
    (if state.groupExited then state
      else { state with exitCode := exitCode }) = recorded
  simp only
  split
  · exact ⟨.testing groupExit, rfl, rfl, nofun, rfl⟩
  · exact ⟨.lastOut groupExit, rfl, rfl, nofun, rfl⟩

theorem groupInvariant_threadExit (holds : GroupInvariant caller code state)
    {exitCode : BitVec 32} {groupExit : Bool}
    (isEntering : (state.threads index).phase = .entering exitCode groupExit)
    (kept : CodeKept caller code state (.threadExit index)) :
    GroupInvariant caller code (state.threadExit index exitCode groupExit) := by
  obtain ⟨phase, left, ends, quiet, isExit⟩ := @threadExit_eq count state index exitCode groupExit
  rw [isExit]
  by_cases isCaller : index = caller
  · subst isCaller
    have isCode := holds.callerCode exitCode groupExit isEntering
    have unmarked : state.groupExited ≠ true := by
      intro groupMarked
      have gone := holds.markedLeft groupMarked
      rw [isEntering] at gone
      cases gone
    rw [if_neg unmarked]
    exact (holds.record fun _ => isCode).setOut left (fun _ => isCode)
        (fun different => (different rfl).elim)
        fun isKilling => (quiet isKilling).elim
  · have ended : phase.endsGroup = true → state.groupExited = true := by
      intro endsGroup
      apply holds.othersMarked index isCaller
      rw [isEntering, ← endsGroup, ends]
      rfl
    by_cases groupMarked : state.groupExited = true
    · rw [if_pos groupMarked]
      exact holds.setOther isCaller ended fun isKilling =>
          (quiet isKilling).elim
    · rw [if_neg groupMarked]
      have recorded := holds.record fun callerLeft =>
          kept isCaller callerLeft (Bool.eq_false_iff.mpr groupMarked) exitCode groupExit isEntering
      exact recorded.setOther isCaller ended fun isKilling =>
          (quiet isKilling).elim

theorem GroupInvariant.kill (holds : GroupInvariant caller code state) {target : Fin count}
    (groupMarked : state.groupExited = true) :
    GroupInvariant caller code (state.kill target) := by
  have samePhase :
      ∀ other, ((state.kill target).threads other).phase = (state.threads other).phase := by
    intro other
    by_cases same : other = target
    · subst same
      simp [GroupState.kill]
    · simp [GroupState.kill, same]
  constructor
  · exact fun _ _ => groupMarked
  · intro _
    rw [samePhase]
    exact holds.markedLeft groupMarked
  · intro left
    rw [samePhase] at left
    exact holds.leftRecorded left
  · intro exitCode groupExit isEntering
    rw [samePhase] at isEntering
    exact holds.callerCode exitCode groupExit isEntering
  · exact fun _ _ _ => groupMarked
  · exact fun _ _ => groupMarked

theorem GroupInvariant.mark (holds : GroupInvariant caller code state)
    (left : (state.threads caller).phase.isLive = false) :
    GroupInvariant caller code { state with groupExited := true } where
  killedMarked _ _ := rfl
  markedLeft _ := left
  leftRecorded := holds.leftRecorded
  callerCode := holds.callerCode
  othersMarked _ _ _ := rfl
  killingMarked _ _ := rfl

theorem GroupInvariant.moveOn (holds : GroupInvariant caller code state)
    (out : (state.threads index).phase.isLive = false)
    (stillOut : phase.isLive = false)
    (ends : phase.endsGroup = true → (state.threads index).phase.endsGroup = true)
    (killing : phase = .killing → state.groupExited = true) :
    GroupInvariant caller code (state.setPhase index phase) := by
  apply holds.setOut stillOut
  · rintro rfl
    exact holds.leftRecorded out
  · intro notCaller endsGroup
    exact holds.othersMarked index notCaller (ends endsGroup)
  · exact killing

theorem groupInvariant_step {target : GroupState count} (step : ExitStep count)
    (holds : GroupInvariant caller code state)
    (kept : CodeKept caller code state step)
    (stepped : (exitMachine caller code).next state step = some target) :
    GroupInvariant caller code target := by
  cases step with
  | sysExit index exitCode =>
      obtain ⟨⟨notCaller, -⟩, ⟨⟩⟩ := Option.ite_none_right_eq_some.mp stepped
      exact holds.setOther notCaller nofun nofun
  | sysExitGroup =>
      obtain ⟨isRunning, ⟨⟩⟩ := Option.ite_none_right_eq_some.mp stepped
      apply holds.setPhase
      · intro _ _
        rw [isRunning]
        rfl
      · exact fun _ => nofun
      · rintro - exitCode groupExit ⟨⟩
        rfl
      · exact fun different => (different rfl).elim
      · nofun
  | dieOfKill index =>
      obtain ⟨⟨killed, isRunning⟩, ⟨⟩⟩ := Option.ite_none_right_eq_some.mp stepped
      have groupMarked := holds.killedMarked index killed
      have notCaller : index ≠ caller := by
        rintro rfl
        have left := holds.markedLeft groupMarked
        rw [isRunning] at left
        cases left
      exact holds.setOther notCaller (fun _ => groupMarked) nofun
  | threadExit index =>
      simp only [exitMachine] at stepped
      split at stepped
      · next exitCode groupExit isEntering =>
          obtain rfl := Option.some.inj stepped
          exact groupInvariant_threadExit holds isEntering kept
      · cases stepped
  | processExit index =>
      simp only [exitMachine] at stepped
      split at stepped
      · next groupExit isLast =>
          obtain rfl := Option.some.inj stepped
          have moved : GroupInvariant caller code (state.setPhase index (.testing groupExit)) := by
            apply holds.moveOn
            · rw [isLast]
              rfl
            · rfl
            · rw [isLast]
              exact id
            · nofun
          exact ⟨moved.killedMarked, moved.markedLeft, moved.leftRecorded,
              moved.callerCode, moved.othersMarked, moved.killingMarked⟩
      · cases stepped
  | testGroup index =>
      simp only [exitMachine] at stepped
      split at stepped
      · next groupExit isTesting =>
          have out : (state.threads index).phase.isLive = false := by
            rw [isTesting]
            rfl
          split at stepped
          · next ends =>
              obtain rfl := Option.some.inj stepped
              refine holds.moveOn out rfl (fun _ => ?_) nofun
              rw [isTesting]
              exact (Bool.and_eq_true_iff.mp ends).1
          · obtain rfl := Option.some.inj stepped
            exact holds.moveOn out rfl nofun nofun
      · cases stepped
  | groupExit index =>
      obtain ⟨isMarking, ⟨⟩⟩ := Option.ite_none_right_eq_some.mp stepped
      have out : (state.threads index).phase.isLive = false := by
        rw [isMarking]
        rfl
      have callerOut : (state.threads caller).phase.isLive = false := by
        by_cases isCaller : index = caller
        · rw [← isCaller]
          exact out
        · apply holds.markedLeft
          apply holds.othersMarked index isCaller
          rw [isMarking]
          rfl
      refine (holds.mark callerOut).moveOn out rfl (fun _ => ?_) fun _ => rfl
      change (state.threads index).phase.endsGroup = true
      rw [isMarking]
      rfl
  | sendKill index target =>
      obtain ⟨⟨isKilling, -⟩, ⟨⟩⟩ := Option.ite_none_right_eq_some.mp stepped
      exact holds.kill (holds.killingMarked index isKilling)
  | finish index =>
      obtain ⟨isKilling, ⟨⟩⟩ := Option.ite_none_right_eq_some.mp stepped
      apply holds.moveOn
      · rw [isKilling]
        rfl
      · rfl
      · nofun
      · nofun

theorem groupInvariant_of_reachable
    (reached : (exitMachine caller code).ReachableWithin (CodeKept caller code) state) :
    GroupInvariant caller code state := by
  apply Machine.ReachableWithin.invariant _ _ reached
  · rintro started ⟨running, unmarked, -⟩
    constructor
    · intro index killed
      rw [running] at killed
      cases killed
    · intro groupMarked
      rw [unmarked] at groupMarked
      cases groupMarked
    · intro left
      rw [running] at left
      cases left
    · intro exitCode groupExit isEntering
      rw [running] at isEntering
      cases isEntering
    · intro index _ ends
      rw [running] at ends
      cases ends
    · intro index isKilling
      rw [running] at isKilling
      cases isKilling
  · intro source step target _ holds kept stepped
    exact groupInvariant_step step holds kept stepped

end Runs

/-- In every interleaving in which no other code is recorded between the exit
of the caller and its mark, the caller's code is the status of the process
from its `thread.exit` on, also when the process becomes a zombie. -/
theorem exit_group_decides_status {count : Nat} (caller : Fin count) (code : BitVec 32)
    (state : GroupState count)
    (reached : (exitMachine caller code).ReachableWithin (CodeKept caller code) state)
    (exited : (state.threads caller).phase.isLive = false) :
    state.exitCode = code <<< 8 :=
  (groupInvariant_of_reachable reached).leftRecorded exited

def twoThreads : GroupState 2 where
  threads _ := ⟨.running, false⟩
  exitCode := 0
  groupExited := false
  zombie := false

theorem exit_group_decides_status_twoThreads :
    ∃ state, (exitMachine (0 : Fin 2) 1).ReachableWithin (CodeKept 0 1) state ∧
      state.zombie = true ∧ state.exitCode = (1 : BitVec 32) <<< 8 := by
  have meets :
      (exitMachine (0 : Fin 2) 1).Meets (CodeKept 0 1) twoThreads
        [.sysExit 1 2, .threadExit 1, .sysExitGroup, .threadExit 0, .processExit 0] := by
    refine Machine.Meets.cons trivial rfl ?_
    refine Machine.Meets.cons ?_ rfl ?_
    · intro _ left
      exact absurd left (by decide)
    refine Machine.Meets.cons trivial rfl ?_
    refine Machine.Meets.cons ?_ rfl ?_
    · exact fun different => (different rfl).elim
    exact Machine.Meets.cons trivial rfl trivial
  obtain ⟨state, reached, observed⟩ :=
    @Machine.exists_reachableWithin_of_exec _ _ (exitMachine (0 : Fin 2) 1)
      (CodeKept 0 1) twoThreads _
      (fun state => decide (state.zombie = true ∧ (state.threads 0).phase.isLive = false))
      ⟨fun _ => rfl, rfl, rfl⟩ meets (by decide)
  obtain ⟨isZombie, exited⟩ := of_decide_eq_true observed
  exact ⟨state, reached, isZombie, exit_group_decides_status 0 1 state reached exited⟩

/-- Thread 0 calls `sys_exit_group(1)` and is overtaken by thread 1, which
calls `sys_exit(2)`. -/
theorem exit_group_overtaken :
    ∃ state, (exitMachine (0 : Fin 2) 1).Reachable state ∧ state.zombie = true ∧
      (state.threads 0).phase.isLive = false ∧
      state.exitCode = (2 : BitVec 32) <<< 8 ∧
      state.exitCode ≠ (1 : BitVec 32) <<< 8 := by
  obtain ⟨state, reached, observed⟩ :=
    @Machine.exists_reachable_of_exec _ _ (exitMachine (0 : Fin 2) 1) twoThreads
      [.sysExitGroup, .sysExit 1 2, .threadExit 0, .threadExit 1, .processExit 1]
      (fun state => decide
        (state.zombie = true ∧ (state.threads 0).phase.isLive = false ∧
          state.exitCode = (2 : BitVec 32) <<< 8 ∧
          state.exitCode ≠ (1 : BitVec 32) <<< 8))
      ⟨fun _ => rfl, rfl, rfl⟩ (by decide)
  exact ⟨state, reached, of_decide_eq_true observed⟩

end Vegar.Task

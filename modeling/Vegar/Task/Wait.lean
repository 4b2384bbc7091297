import Vegar.Lib.Machine
import Vegar.Outcome

/-!
# Waiting for children

`sys_waitpid` of `api/src/imp/task/wait.rs` and the part of `do_exit` of
`api/src/imp/task/exit.rs` by which a child ends.  The children are collected
once, when a call enters; the test of each, the `free` of the one found, the
write of its exit code and the falling asleep are separate steps.
-/

namespace Vegar.Task

open Vegar.Lib

/-! ## Options and selectors -/

/-- `WaitOptions`. -/
structure WaitOptions where
  bits : BitVec 32
  deriving DecidableEq, Repr

namespace WaitOptions

def wnohang : BitVec 32 := 0x00000001
def wuntraced : BitVec 32 := 0x00000002
def wexited : BitVec 32 := 0x00000004
def wcontinued : BitVec 32 := 0x00000008
def wnowait : BitVec 32 := 0x01000000
def wnothread : BitVec 32 := 0x20000000
def wall : BitVec 32 := 0x40000000
def wclone : BitVec 32 := 0x80000000

def all : BitVec 32 :=
  wnohang ||| wuntraced ||| wexited ||| wcontinued ||| wnowait ||| wnothread ||| wall ||| wclone

def fromBitsTruncate (bits : BitVec 32) : WaitOptions := ⟨bits &&& all⟩

def contains (options : WaitOptions) (wanted : BitVec 32) : Bool :=
  options.bits &&& wanted == wanted

end WaitOptions

/-- How far a process is in `do_exit`. -/
inductive ExitPhase where
  | running
  | exited
  | notified
  deriving DecidableEq, Repr

structure Child where
  pgid : Nat
  exitSignal : Option Nat
  exitCode : BitVec 32
  phase : ExitPhase
  deriving DecidableEq, Repr

namespace Child

/-- `Signo::SIGCHLD`. -/
def sigchld : Nat := 17

def isCloneChild (child : Child) : Bool := child.exitSignal != some sigchld

def isZombie (child : Child) : Bool := child.phase != .running

end Child

/-- `WaitPid`. -/
inductive WaitPid where
  | any
  | pid (pid : Nat)
  | pgid (pgid : Nat)
  deriving DecidableEq, Repr

def WaitPid.apply (selector : WaitPid) (pid : Nat) (child : Child) : Bool :=
  match selector with
  | .any => true
  | .pid wanted => pid == wanted
  | .pgid wanted => child.pgid == wanted

/-- The selector for the `pid` argument; `none` where the negation of the
argument overflows. -/
def waitPid (ownPgid : Nat) (pid : BitVec 32) : Option WaitPid :=
  if pid.toInt = -1 then some .any
  else if pid.toInt = 0 then some (.pgid ownPgid)
  else if 0 < pid.toInt then some (.pid pid.toNat)
  else if pid = BitVec.intMin 32 then none
  else some (.pgid (-pid).toNat)

/-! ## Calls -/

/-- Where a `sys_waitpid` stands.  `testing` carries the collected children
and those of them that the current round has not tested yet. -/
inductive WaitpidPhase where
  | entered
  | testing (snapshot rest : List Nat)
  | found (child : Nat)
  | reporting (child : Nat)
  | drowsy (snapshot : List Nat)
  | asleep (snapshot : List Nat)
  | returned (result : LinuxResult Nat) (status : Option (BitVec 32))
  | panicked
  deriving DecidableEq

def WaitpidPhase.woken : WaitpidPhase → WaitpidPhase
  | .asleep snapshot => .testing snapshot snapshot
  | phase => phase

/-- A `sys_waitpid`.  `exitCodePtr` is what `get_as_mut` says of the pointer,
and `none` for a null pointer. -/
structure WaitCall where
  pid : BitVec 32
  exitCodePtr : Option (LinuxResult Unit)
  options : WaitOptions
  phase : WaitpidPhase

namespace WaitCall

def selects (call : WaitCall) (ownPgid pid : Nat) (child : Child) : Bool :=
  match waitPid ownPgid call.pid with
  | none => false
  | some selector =>
      selector.apply pid child &&
        (call.options.contains WaitOptions.wall ||
          call.options.contains WaitOptions.wclone == child.isCloneChild)

def Blocking (call : WaitCall) : Prop := call.options.contains WaitOptions.wnohang = false

def Reaps (call : WaitCall) : Prop := call.options.contains WaitOptions.wnowait = false

end WaitCall

/-- A process, its children by their process ids, the ids that
`Process::children` yields, and the calls in the order they start. -/
structure Family where
  pgid : Nat
  processes : Nat → Option Child
  children : List Nat
  calls : List WaitCall

inductive FamilyAction where
  | fork (pid position pgid : Nat) (exitSignal : Option Nat)
  | wait (pid : BitVec 32) (exitCodePtr : Option (LinuxResult Unit)) (options : BitVec 32)
  | exit (pid : Nat) (exitCode : BitVec 32)
  | notify (pid : Nat)
  | step (call : Nat)

namespace Family

def isZombie (family : Family) (pid : Nat) : Bool := (family.processes pid).any Child.isZombie

def setCall (family : Family) (index : Nat) (phase : WaitpidPhase) :
    Family :=
  { family with
    calls := family.calls.modify index fun call =>
      { call with phase := phase } }

def collect (family : Family) (call : WaitCall) : List Nat := family.children.filter fun pid =>
    (family.processes pid).any (call.selects family.pgid pid)

/-- `Process::free`. -/
def free (family : Family) (pid : Nat) : Family :=
  { family with children := family.children.filter (· ≠ pid) }

/-- What a call writes through `exit_code_ptr` for a child. -/
def status (family : Family) (call : WaitCall) (pid : Nat) : Option (BitVec 32) :=
  call.exitCodePtr.bind fun _ => (family.processes pid).map Child.exitCode

/-- One step of a `sys_waitpid`. -/
def stepCall (family : Family) (index : Nat) (call : WaitCall) :
    Option Family :=
  match call.phase with
  | .entered =>
      if waitPid family.pgid call.pid = none then
        some (family.setCall index .panicked)
      else if (family.collect call).isEmpty then
        some (family.setCall index (.returned (.error .ECHILD) none))
      else
        match call.exitCodePtr with
        | some (.error error) =>
            some (family.setCall index (.returned (.error error) none))
        | _ =>
            some (family.setCall index (.testing (family.collect call) (family.collect call)))
  | .testing snapshot (child :: rest) =>
      if family.isZombie child then
        some (family.setCall index (.found child))
      else some (family.setCall index (.testing snapshot rest))
  | .testing snapshot [] =>
      if call.options.contains WaitOptions.wnohang then
        some (family.setCall index (.returned (.ok 0) none))
      else some (family.setCall index (.drowsy snapshot))
  | .found child =>
      if call.options.contains WaitOptions.wnowait then
        some (family.setCall index (.reporting child))
      else some ((family.free child).setCall index (.reporting child))
  | .reporting child =>
      some (family.setCall index (.returned (.ok child) (family.status call child)))
  | .drowsy snapshot => some (family.setCall index (.asleep snapshot))
  | .asleep _ => none
  | .returned _ _ => none
  | .panicked => none

/-- `notify_all` on `child_exit_wq`: whoever sleeps goes on with the loop. -/
def wakeAll (family : Family) : Family :=
  { family with
    calls := family.calls.map fun call =>
      { call with phase := call.phase.woken } }

def setChild (family : Family) (pid : Nat) (child : Child) : Family :=
  { family with
    processes := Function.update family.processes pid (some child) }

end Family

def familyNext (family : Family) : FamilyAction → Option Family
  | .fork pid position pgid exitSignal =>
      if pid = 0 ∨ (family.processes pid).isSome ∨ family.children.length < position then none
      else
        some { family.setChild pid ⟨pgid, exitSignal, 0, .running⟩ with
          children := family.children.insertIdx position pid }
  | .wait pid exitCodePtr options =>
      some { family with
        calls := family.calls ++ [⟨pid, exitCodePtr, .fromBitsTruncate options, .entered⟩] }
  | .exit pid exitCode =>
      (family.processes pid).bind fun child =>
        if child.phase = .running then
          some (family.setChild pid { child with exitCode := exitCode, phase := .exited })
        else none
  | .notify pid =>
      (family.processes pid).bind fun child =>
        if child.phase = .exited then
          some (family.setChild pid { child with phase := .notified }).wakeAll
        else none
  | .step index =>
      (family.calls[index]?).bind fun call => family.stepCall index call

def familyMachine : Machine Family FamilyAction where
  start family := family.processes = (fun _ => none) ∧ family.children = [] ∧ family.calls = []
  next := familyNext

def childless : Family := ⟨1, fun _ => none, [], []⟩

/-! ## What a step can do -/

section Next

variable {source target : Family} {pid : Nat}

theorem familyNext_fork {position pgid : Nat} {exitSignal : Option Nat}
    (stepped : familyNext source (.fork pid position pgid exitSignal) = some target) :
    pid ≠ 0 ∧ source.processes pid = none ∧
      target =
        { source.setChild pid ⟨pgid, exitSignal, 0, .running⟩ with
          children := source.children.insertIdx position pid } := by
  obtain ⟨allowed, isTarget⟩ := Option.ite_none_left_eq_some.mp stepped
  obtain ⟨notZero, fresh, -⟩ := not_or.mp allowed |>.imp_right not_or.mp
  exact ⟨notZero, Option.not_isSome_iff_eq_none.mp fresh, (Option.some.inj isTarget).symm⟩

theorem familyNext_exit {exitCode : BitVec 32}
    (stepped : familyNext source (.exit pid exitCode) = some target) :
    ∃ child, source.processes pid = some child ∧
      target =
        source.setChild pid { child with exitCode := exitCode, phase := .exited } := by
  obtain ⟨child, known, moved⟩ := Option.bind_eq_some_iff.mp stepped
  obtain ⟨-, isTarget⟩ := Option.ite_none_right_eq_some.mp moved
  exact ⟨child, known, (Option.some.inj isTarget).symm⟩

theorem familyNext_notify (stepped : familyNext source (.notify pid) = some target) :
    ∃ child, source.processes pid = some child ∧
      target = (source.setChild pid { child with phase := .notified }).wakeAll := by
  obtain ⟨child, known, moved⟩ := Option.bind_eq_some_iff.mp stepped
  obtain ⟨-, isTarget⟩ := Option.ite_none_right_eq_some.mp moved
  exact ⟨child, known, (Option.some.inj isTarget).symm⟩

end Next

inductive CallStep (family : Family) (call : WaitCall) : List Nat → WaitpidPhase → Prop
  | panic : call.phase = .entered → CallStep family call family.children .panicked
  | refuse (error : LinuxError) : call.phase = .entered →
      CallStep family call family.children (.returned (.error error) none)
  | collect : call.phase = .entered →
      CallStep family call family.children (.testing (family.collect call) (family.collect call))
  | find (snapshot : List Nat) (child : Nat) (rest : List Nat) :
      call.phase = .testing snapshot (child :: rest) →
      family.isZombie child = true →
      CallStep family call family.children (.found child)
  | pass (snapshot : List Nat) (child : Nat) (rest : List Nat) :
      call.phase = .testing snapshot (child :: rest) →
      family.isZombie child = false →
      CallStep family call family.children (.testing snapshot rest)
  | giveUp (snapshot : List Nat) : call.phase = .testing snapshot [] → ¬ call.Blocking →
      CallStep family call family.children (.returned (.ok 0) none)
  | drowse (snapshot : List Nat) : call.phase = .testing snapshot [] → call.Blocking →
      CallStep family call family.children (.drowsy snapshot)
  | peek (child : Nat) : call.phase = .found child → ¬ call.Reaps →
      CallStep family call family.children (.reporting child)
  | free (child : Nat) : call.phase = .found child → call.Reaps →
      CallStep family call (family.free child).children (.reporting child)
  | report (child : Nat) (status : Option (BitVec 32)) : call.phase = .reporting child →
      CallStep family call family.children (.returned (.ok child) status)
  | sleep (snapshot : List Nat) : call.phase = .drowsy snapshot →
      CallStep family call family.children (.asleep snapshot)

namespace Family

theorem callStep_of_stepCall {source target : Family} {index : Nat} {call : WaitCall}
    (stepped : source.stepCall index call = some target) :
    ∃ children phase,
      CallStep source call children phase ∧
        target = { source with children := children }.setCall index phase := by
  unfold stepCall at stepped
  split at stepped
  · rename_i isEntered
    split at stepped
    · exact ⟨_, _, .panic isEntered, (Option.some.inj stepped).symm⟩
    split at stepped
    · exact ⟨_, _, .refuse _ isEntered, (Option.some.inj stepped).symm⟩
    split at stepped
    · exact ⟨_, _, .refuse _ isEntered, (Option.some.inj stepped).symm⟩
    · exact ⟨_, _, .collect isEntered, (Option.some.inj stepped).symm⟩
  · rename_i snapshot child rest isTesting
    split at stepped
    · rename_i zombie
      exact ⟨_, _, .find snapshot child rest isTesting zombie, (Option.some.inj stepped).symm⟩
    · rename_i alive
      exact ⟨_, _, .pass snapshot child rest isTesting (eq_false_of_ne_true alive),
        (Option.some.inj stepped).symm⟩
  · rename_i snapshot isTesting
    split at stepped
    · rename_i noHang
      refine ⟨_, _, .giveUp snapshot isTesting ?_, (Option.some.inj stepped).symm⟩
      simp [WaitCall.Blocking, noHang]
    · rename_i blocks
      exact ⟨_, _, .drowse snapshot isTesting (eq_false_of_ne_true blocks),
        (Option.some.inj stepped).symm⟩
  · rename_i child isFound
    split at stepped
    · rename_i noWait
      refine ⟨_, _, .peek child isFound ?_, (Option.some.inj stepped).symm⟩
      simp [WaitCall.Reaps, noWait]
    · rename_i reaps
      exact ⟨_, _, .free child isFound (eq_false_of_ne_true reaps), (Option.some.inj stepped).symm⟩
  · rename_i child isReporting
    exact ⟨_, _, .report child _ isReporting, (Option.some.inj stepped).symm⟩
  · rename_i snapshot isDrowsy
    exact ⟨_, _, .sleep snapshot isDrowsy, (Option.some.inj stepped).symm⟩
  · cases stepped
  · cases stepped
  · cases stepped

theorem getElem?_wakeAll {family : Family} {index : Nat} {after : WaitCall}
    (found : family.wakeAll.calls[index]? = some after) :
    ∃ call, family.calls[index]? = some call ∧ after = { call with phase := call.phase.woken } := by
  simp only [wakeAll, List.getElem?_map] at found
  obtain ⟨call, foundCall, isAfter⟩ := Option.map_eq_some_iff.mp found
  exact ⟨call, foundCall, isAfter.symm⟩

theorem isZombie_setChild {family : Family} {pid zombie : Nat} {child : Child}
    (isZombie : family.isZombie zombie = true)
    (kept : family.processes pid = none ∨ child.isZombie = true) :
    (family.setChild pid child).isZombie zombie = true := by
  unfold Family.isZombie setChild at *
  by_cases same : zombie = pid
  · subst same
    rcases kept with fresh | stays
    · rw [fresh] at isZombie
      cases isZombie
    · simp [stays]
  · simp only [Function.update_of_ne same]
    exact isZombie

end Family

end Vegar.Task

import Vegar.Outcome

/-!
# Clone flags

The decisions `sys_clone` of `api/src/imp/task/clone.rs` takes from its
flags: which combinations it refuses, and whether the new thread joins the
process of the caller or starts one of its own.
-/

namespace Vegar.Task

/-- `CloneFlags`. -/
structure CloneFlags where
  bits : BitVec 32
  deriving DecidableEq, Repr

namespace CloneFlags

def vm : BitVec 32 := 0x00000100
def fs : BitVec 32 := 0x00000200
def files : BitVec 32 := 0x00000400
def sighand : BitVec 32 := 0x00000800
def ptrace : BitVec 32 := 0x00002000
def vfork : BitVec 32 := 0x00004000
def parent : BitVec 32 := 0x00008000
def thread : BitVec 32 := 0x00010000
def newns : BitVec 32 := 0x00020000
def sysvsem : BitVec 32 := 0x00040000
def settls : BitVec 32 := 0x00080000
def parentSettid : BitVec 32 := 0x00100000
def childCleartid : BitVec 32 := 0x00200000
def untraced : BitVec 32 := 0x00800000
def childSettid : BitVec 32 := 0x01000000
def newcgroup : BitVec 32 := 0x02000000
def newuts : BitVec 32 := 0x04000000
def newipc : BitVec 32 := 0x08000000
def newuser : BitVec 32 := 0x10000000
def newpid : BitVec 32 := 0x20000000
def newnet : BitVec 32 := 0x40000000
def io : BitVec 32 := 0x80000000

def all : BitVec 32 := vm ||| fs ||| files ||| sighand ||| ptrace ||| vfork ||| parent |||
    thread ||| newns ||| sysvsem ||| settls ||| parentSettid |||
    childCleartid ||| untraced ||| childSettid ||| newcgroup ||| newuts |||
    newipc ||| newuser ||| newpid ||| newnet ||| io

def fromBitsTruncate (bits : BitVec 32) : CloneFlags := ⟨bits &&& all⟩

def contains (flags : CloneFlags) (wanted : BitVec 32) : Bool := flags.bits &&& wanted == wanted

end CloneFlags

/-- `FLAG_MASK`, the bits of the exit signal. -/
def flagMask : BitVec 32 := 0xff

/-- What the rest of the kernel answers during a clone: the user pointers for
the two thread ids, whether the calling process has a parent, and the copy of
the address space. -/
structure CloneEnv where
  childTid : LinuxResult Unit
  parentTid : LinuxResult Unit
  hasParent : Bool
  aspaceCopy : LinuxResult Unit

inductive ClonePlan where
  | thread
  | process (sharesFiles : Bool)
  deriving DecidableEq, Repr

/-- The checks of `sys_clone`, in their order. -/
def planClone (flags : BitVec 32) (env : CloneEnv) :
    LinuxResult ClonePlan := do
  let exitSignal := flags &&& flagMask
  let flags := CloneFlags.fromBitsTruncate (flags &&& ~~~flagMask)
  if exitSignal ≠ 0 ∧ flags.contains (CloneFlags.thread ||| CloneFlags.parent) then
    throw .EINVAL
  if flags.contains CloneFlags.thread ∧ ¬ flags.contains (CloneFlags.vm ||| CloneFlags.sighand) then
    throw .EINVAL
  if flags.contains CloneFlags.childSettid then
    env.childTid
  if flags.contains CloneFlags.parentSettid then
    env.parentTid
  if flags.contains CloneFlags.thread then
    return .thread
  if flags.contains CloneFlags.parent ∧ ¬ env.hasParent then
    throw .EINVAL
  if ¬ flags.contains CloneFlags.vm then
    env.aspaceCopy
  return .process (flags.contains CloneFlags.files)

/-! ## Accepted flags -/

def cloneFlags (flags : BitVec 32) : CloneFlags := .fromBitsTruncate (flags &&& ~~~flagMask)

theorem planClone_eq_ok {flags : BitVec 32} {env : CloneEnv} {plan : ClonePlan}
    (accepted : planClone flags env = .ok plan) :
    if (cloneFlags flags).contains CloneFlags.thread then plan = .thread
    else
      plan = .process ((cloneFlags flags).contains CloneFlags.files) ∧
        ((cloneFlags flags).contains CloneFlags.parent = true → env.hasParent = true) := by
  unfold planClone at accepted
  obtain ⟨-, accepted⟩ := ok_of_check accepted
  obtain ⟨-, accepted⟩ := ok_of_check accepted
  replace accepted := ok_of_optional accepted
  replace accepted := ok_of_optional accepted
  split at accepted
  · next isThread =>
      rw [cloneFlags, if_pos isThread]
      exact (Except.ok.inj accepted).symm
  · next notThread =>
      obtain ⟨parented, accepted⟩ := ok_of_check accepted
      replace accepted := ok_of_optional accepted
      rw [cloneFlags, if_neg notThread]
      refine ⟨(Except.ok.inj accepted).symm, ?_⟩
      intro asParent
      exact not_not.mp fun orphan => parented ⟨asParent, orphan⟩

end Vegar.Task

import Vegar.Lib.Machine
import Vegar.Outcome

/-!
# The mask of blocked signals

`sys_rt_sigprocmask` and `sys_rt_sigsuspend` of `api/src/imp/signal.rs`.  The
second removes `SIGKILL` and `SIGSTOP` from the mask it installs; the first
installs whatever the caller passes.
-/

namespace Vegar.Task

open Vegar.Lib

/-! ## Sets of signals -/

/-- `axsignal::SignalSet`: the bit before the number of each signal. -/
abbrev SignalSet := BitVec 64

def sigkill : Nat := 9

def sigstop : Nat := 19

namespace SignalSet

/-- `SignalSet::has`. -/
def has (set : SignalSet) (signo : Nat) : Bool := set.getLsbD (signo - 1)

/-- `SignalSet::remove`. -/
def remove (set : SignalSet) (signo : Nat) : SignalSet := set &&& ~~~(1#64 <<< (signo - 1))

@[simp]
theorem has_or (left right : SignalSet) (signo : Nat) :
    has (left ||| right) signo = (has left signo || has right signo) :=
  BitVec.getLsbD_or

theorem has_and_not (left right : SignalSet) (signo : Nat)
    (present : has (left &&& ~~~right) signo = true) :
    has left signo = true := by
  unfold has at present ⊢
  rw [BitVec.getLsbD_and, Bool.and_eq_true] at present
  exact present.1

theorem has_remove_self (set : SignalSet) (signo : Nat) : has (remove set signo) signo = false := by
  unfold has remove
  rw [← BitVec.twoPow_eq]
  simp

/-- Neither `SIGKILL` nor `SIGSTOP` is in the set. -/
def Sparing (set : SignalSet) : Prop :=
  ∀ signo, signo = sigkill ∨ signo = sigstop → has set signo = false

instance (set : SignalSet) : Decidable (Sparing set) :=
  decidable_of_iff (has set sigkill = false ∧ has set sigstop = false) (by
    unfold Sparing
    constructor
    · rintro ⟨noKill, noStop⟩ signo (rfl | rfl)
      · exact noKill
      · exact noStop
    · intro sparing
      exact ⟨sparing _ (Or.inl rfl), sparing _ (Or.inr rfl)⟩)

theorem Sparing.mono {larger smaller : SignalSet} (sparing : Sparing larger)
    (below : ∀ signo, has smaller signo = true → has larger signo = true) :
    Sparing smaller := by
  intro signo which
  rw [Bool.eq_false_iff]
  intro present
  have absent := sparing signo which
  rw [below signo present] at absent
  cases absent

theorem Sparing.or {left right : SignalSet} (leftSparing : Sparing left)
    (rightSparing : Sparing right) : Sparing (left ||| right) := by
  intro signo which
  rw [has_or, leftSparing signo which, rightSparing signo which, Bool.or_false]

theorem sparing_remove (set : SignalSet) : Sparing (remove (remove set sigkill) sigstop) := by
  rintro signo (rfl | rfl)
  · rw [Bool.eq_false_iff]
    intro present
    have kept := has_and_not _ _ _ present
    rw [has_remove_self] at kept
    cases kept
  · exact has_remove_self _ _

end SignalSet

/-! ## The two calls -/

def sigBlock : BitVec 32 := 0
def sigUnblock : BitVec 32 := 1
def sigSetmask : BitVec 32 := 2

/-- `size_of::<SignalSet>()`. -/
def sigsetBytes : Nat := 8

/-- The arguments of `sys_rt_sigprocmask`.  `oldset` tells whether the old mask
is stored, `set` what its pointer holds before that, and `sameWord` whether
both pointers are the same. -/
structure SigprocmaskCall where
  how : BitVec 32
  set : LinuxResult (Option SignalSet)
  oldset : LinuxResult Bool
  sameWord : Bool
  sigsetsize : Nat

def SigprocmaskCall.operand (call : SigprocmaskCall) (blocked : SignalSet) :
    LinuxResult (Option SignalSet) := do
  let stored ← call.oldset
  let set ← call.set
  return set.map fun set =>
    if stored && call.sameWord then blocked else set

/-- `sys_rt_sigprocmask`: its result and the mask after it. -/
def sysRtSigprocmask (blocked : SignalSet) (call : SigprocmaskCall) :
    LinuxResult Int × SignalSet :=
  if call.sigsetsize ≠ sigsetBytes then (.error .EINVAL, blocked)
  else
    match call.operand blocked with
    | .error error => (.error error, blocked)
    | .ok none => (.ok 0, blocked)
    | .ok (some set) =>
        if call.how = sigBlock then (.ok 0, blocked ||| set)
        else if call.how = sigUnblock then (.ok 0, blocked &&& ~~~set)
        else if call.how = sigSetmask then (.ok 0, set)
        else (.error .EINVAL, blocked)

/-- The mask of a thread.  Inside `sys_rt_sigsuspend` the thread keeps the mask
it had before. -/
structure MaskedThread where
  blocked : SignalSet
  oldBlocked : Option SignalSet
  deriving DecidableEq

/-- `sys_rt_sigsuspend` up to its loop. -/
def sysRtSigsuspend (thread : MaskedThread) (set : LinuxResult SignalSet)
    (sigsetsize : Nat) : MaskedThread :=
  if sigsetsize ≠ sigsetBytes then thread
  else
    match set with
    | .error _ => thread
    | .ok set =>
        { blocked := (set.remove sigkill).remove sigstop
          oldBlocked := some thread.blocked }

/-! ## Runs -/

/-- The steps of a thread: the two calls, and `check_signals` in the loop of
`sys_rt_sigsuspend`, which belongs to `axsignal`; it leaves some mask, and
says whether a signal was handled. -/
inductive MaskStep where
  | sigprocmask (call : SigprocmaskCall)
  | sigsuspend (set : LinuxResult SignalSet) (sigsetsize : Nat)
  | checkSignals (blocked : SignalSet) (handled : Bool)

/-- A thread that calls `sys_rt_sigprocmask` and `sys_rt_sigsuspend`, from the
empty mask. -/
def maskMachine : Machine MaskedThread MaskStep where
  start thread := thread.blocked = 0 ∧ thread.oldBlocked = none
  next
    | ⟨blocked, none⟩, .sigprocmask call =>
        some ⟨(sysRtSigprocmask blocked call).2, none⟩
    | ⟨blocked, none⟩, .sigsuspend set sigsetsize =>
        some (sysRtSigsuspend ⟨blocked, none⟩ set sigsetsize)
    | ⟨_, some oldBlocked⟩, .checkSignals blocked handled =>
        some ⟨blocked, if handled then none else some oldBlocked⟩
    | _, _ => none

/-- No `sys_rt_sigprocmask` adds or installs a set with `SIGKILL` or
`SIGSTOP`, and `axsignal` introduces neither: it leaves them blocked only
where one of the masks it is given has them. -/
def SparesUnblockable (thread : MaskedThread) : MaskStep → Prop
  | .sigprocmask call =>
      call.sigsetsize = sigsetBytes →
      call.how = sigBlock ∨ call.how = sigSetmask →
      ∀ set, call.operand thread.blocked = .ok (some set) → set.Sparing
  | .sigsuspend _ _ => True
  | .checkSignals blocked _ =>
      ∀ signo, signo = sigkill ∨ signo = sigstop →
        blocked.has signo = true →
          thread.blocked.has signo = true ∨
            ∃ oldBlocked, thread.oldBlocked = some oldBlocked ∧ oldBlocked.has signo = true

theorem sparing_sysRtSigprocmask {blocked : SignalSet} {call : SigprocmaskCall}
    (sparing : blocked.Sparing)
    (spares : SparesUnblockable ⟨blocked, none⟩ (.sigprocmask call)) :
    (sysRtSigprocmask blocked call).2.Sparing := by
  unfold sysRtSigprocmask
  split
  · exact sparing
  · next size =>
      have operandSparing := spares (not_not.mp size)
      split
      · exact sparing
      · exact sparing
      · next set isSet =>
          split
          · next how =>
              exact sparing.or (operandSparing (Or.inl how) set isSet)
          · split
            · exact sparing.mono fun signo =>
                SignalSet.has_and_not blocked set signo
            · split
              · next how =>
                  exact operandSparing (Or.inr how) set isSet
              · exact sparing

theorem sparing_sysRtSigsuspend {blocked : SignalSet} (sparing : blocked.Sparing)
    (set : LinuxResult SignalSet) (sigsetsize : Nat) :
    (sysRtSigsuspend ⟨blocked, none⟩ set sigsetsize).blocked.Sparing ∧
      ∀ oldBlocked,
        (sysRtSigsuspend ⟨blocked, none⟩ set sigsetsize).oldBlocked =
          some oldBlocked → oldBlocked.Sparing := by
  unfold sysRtSigsuspend
  split
  · exact ⟨sparing, nofun⟩
  · split
    · exact ⟨sparing, nofun⟩
    · refine ⟨SignalSet.sparing_remove _, ?_⟩
      intro oldBlocked isOld
      obtain rfl := Option.some.inj isOld
      exact sparing

theorem sparing_checkSignals {blocked oldBlocked after : SignalSet} {handled : Bool}
    (sparing : blocked.Sparing) (oldSparing : oldBlocked.Sparing)
    (spares : SparesUnblockable ⟨blocked, some oldBlocked⟩ (.checkSignals after handled)) :
    after.Sparing := by
  intro signo which
  rw [Bool.eq_false_iff]
  intro present
  rcases spares signo which present with before | ⟨old, isOld, before⟩
  · rw [sparing signo which] at before
    cases before
  · obtain rfl := Option.some.inj isOld
    rw [oldSparing signo which] at before
    cases before

/-- Neither the mask of the thread nor the one it keeps has `SIGKILL` or
`SIGSTOP`. -/
def MaskedThread.Sparing (thread : MaskedThread) : Prop :=
  thread.blocked.Sparing ∧ ∀ oldBlocked, thread.oldBlocked = some oldBlocked → oldBlocked.Sparing

theorem sparing_step {thread target : MaskedThread} {step : MaskStep}
    (holds : thread.Sparing) (spares : SparesUnblockable thread step)
    (stepped : maskMachine.next thread step = some target) :
    target.Sparing := by
  obtain ⟨blocked, oldBlocked⟩ := thread
  obtain ⟨sparing, oldSparing⟩ := holds
  cases oldBlocked with
  | none =>
      cases step with
      | sigprocmask call =>
          obtain rfl := Option.some.inj stepped
          exact ⟨sparing_sysRtSigprocmask sparing spares, nofun⟩
      | sigsuspend set sigsetsize =>
          obtain rfl := Option.some.inj stepped
          exact sparing_sysRtSigsuspend sparing set sigsetsize
      | checkSignals after handled => cases stepped
  | some old =>
      cases step with
      | sigprocmask call => cases stepped
      | sigsuspend set sigsetsize => cases stepped
      | checkSignals after handled =>
          obtain rfl := Option.some.inj stepped
          have after := sparing_checkSignals sparing (oldSparing old rfl) spares
          cases handled with
          | true => exact ⟨after, nofun⟩
          | false => exact ⟨after, oldSparing⟩

theorem sparing_of_reachable {thread : MaskedThread}
    (reached : maskMachine.ReachableWithin SparesUnblockable thread) :
    thread.Sparing := by
  refine Machine.ReachableWithin.invariant ?_ ?_ reached
  · rintro started ⟨isEmpty, notSuspended⟩
    rw [MaskedThread.Sparing, isEmpty, notSuspended]
    exact ⟨by decide, nofun⟩
  · intro source step target _ holds spares stepped
    exact sparing_step holds spares stepped

/-- In every run that meets the condition, the thread blocks neither
`SIGKILL` nor `SIGSTOP`. -/
theorem kill_and_stop_never_blocked (thread : MaskedThread)
    (reached : maskMachine.ReachableWithin SparesUnblockable thread) :
    thread.blocked.has sigkill = false ∧ thread.blocked.has sigstop = false := by
  have sparing := (sparing_of_reachable reached).1
  exact ⟨sparing _ (Or.inl rfl), sparing _ (Or.inr rfl)⟩

def setMask (set : SignalSet) : MaskStep :=
  .sigprocmask ⟨sigSetmask, .ok (some set), .ok false, false, sigsetBytes⟩

theorem kill_and_stop_never_blocked_setMask :
    ∃ thread, maskMachine.ReachableWithin SparesUnblockable thread ∧ thread.blocked.has 1 = true ∧
      thread.blocked.has sigkill = false ∧
      thread.blocked.has sigstop = false := by
  have spares : SparesUnblockable ⟨0, none⟩ (setMask 0x1) := by
    intro _ _ set isSet
    change Except.ok (some (0x1 : SignalSet)) = .ok (some set) at isSet
    obtain rfl := Option.some.inj (Except.ok.inj isSet)
    decide
  obtain ⟨thread, reached, observed⟩ := @Machine.exists_reachableWithin_of_exec _ _ maskMachine
      SparesUnblockable ⟨0, none⟩ [setMask 0x1]
      (fun state => state.blocked.has 1)
      ⟨rfl, rfl⟩ ⟨spares, fun _ _ => trivial⟩ (by decide)
  exact ⟨thread, reached, observed, kill_and_stop_never_blocked thread reached⟩

/-- One call of `sys_rt_sigprocmask` blocks both. -/
theorem kill_and_stop_blocked_by_setMask :
    ∃ thread, maskMachine.Reachable thread ∧ thread.blocked.has sigkill = true ∧
      thread.blocked.has sigstop = true := by
  obtain ⟨thread, reached, observed⟩ :=
    @Machine.exists_reachable_of_exec _ _ maskMachine ⟨0, none⟩ [setMask 0x40100]
      (fun state => decide (state.blocked.has sigkill = true ∧ state.blocked.has sigstop = true))
      ⟨rfl, rfl⟩ (by decide)
  exact ⟨thread, reached, of_decide_eq_true observed⟩

end Vegar.Task

import Vegar.Task.Clone
import Vegar.Task.SignalMask

/-!
# Signals of a new process

`sys_clone` of `api/src/imp/task/clone.rs` takes the table of actions from the
parent of the new process if the flags ask for a shared one, and a new one
otherwise; nothing is copied from the caller.
-/

namespace Vegar.Task

/-- What `sys_clone` reads of the signal state: the contents of the shared
tables of actions, by allocation, the table of the caller's process, its
parent with the table of its `ProcessData` if it has any, and the caller's
mask. -/
structure SignalCaller (Actions : Type) where
  tables : Nat → Actions
  fresh : Nat
  actions : Nat
  parent : Option (Option Nat)
  blocked : SignalSet
  actionsHeld : actions < fresh
  parentHeld : ∀ table, parent = some (some table) → table < fresh

structure ClonedSignals (Actions : Type) where
  tables : Nat → Actions
  actions : Nat
  blocked : SignalSet

section Clone

variable {Actions : Type} (default : Actions)

/-- `Arc::default` of a table of actions. -/
def arcDefault (caller : SignalCaller Actions) : Nat × (Nat → Actions) :=
  (caller.fresh, fun table =>
    if table = caller.fresh then default else caller.tables table)

/-- `signal_actions`. -/
def signalActions (flags : CloneFlags) (caller : SignalCaller Actions) : Nat × (Nat → Actions) :=
  if flags.contains CloneFlags.sighand then
    let parentData :=
      if flags.contains CloneFlags.parent then caller.parent.join
      else some caller.actions
    match parentData with
    | some table => (table, caller.tables)
    | none => arcDefault default caller
  else arcDefault default caller

/-- The signal state that `sys_clone` gives the new thread. -/
def sysCloneSignals (flags : BitVec 32) (env : CloneEnv) (caller : SignalCaller Actions) :
    LinuxResult (ClonedSignals Actions) := do
  match ←
    planClone flags { env with hasParent := caller.parent.isSome }
  with
  | .thread => return ⟨caller.tables, caller.actions, 0⟩
  | .process _ =>
      let (actions, tables) := signalActions default (cloneFlags flags) caller
      return ⟨tables, actions, 0⟩

end Clone

def InheritsSignals {Actions : Type} (flags : CloneFlags)
    (caller : SignalCaller Actions) (cloned : ClonedSignals Actions) :
    Prop :=
  (if flags.contains CloneFlags.sighand then
    cloned.actions = caller.actions
  else
    caller.fresh ≤ cloned.actions ∧ cloned.tables cloned.actions = caller.tables caller.actions) ∧
  cloned.blocked = caller.blocked

def SignalsInheritable {Actions : Type} (default : Actions)
    (flags : CloneFlags) (caller : SignalCaller Actions) : Prop :=
  caller.blocked = 0 ∧
  (flags.contains CloneFlags.sighand = true → flags.contains CloneFlags.parent = true →
    caller.parent = some (some caller.actions)) ∧
  (flags.contains CloneFlags.sighand = false → caller.tables caller.actions = default)

section Inherit

variable {Actions : Type} {default : Actions} {flags : CloneFlags} {caller : SignalCaller Actions}

theorem signalActions_parent_iff (shares : flags.contains CloneFlags.sighand = true)
    (asParent : flags.contains CloneFlags.parent = true) :
    (signalActions default flags caller).1 = caller.actions ↔
      caller.parent = some (some caller.actions) := by
  have notFresh : caller.fresh ≠ caller.actions := Nat.ne_of_gt caller.actionsHeld
  simp only [signalActions, if_pos shares, if_pos asParent]
  cases caller.parent with
  | none => simp [arcDefault, notFresh]
  | some parentData =>
      cases parentData with
      | none => simp [arcDefault, notFresh]
      | some table => simp

theorem signalActions_caller (shares : flags.contains CloneFlags.sighand = true)
    (asChild : flags.contains CloneFlags.parent = false) :
    (signalActions default flags caller).1 = caller.actions := by
  simp [signalActions, shares, asChild]

theorem signalActions_private (unshared : flags.contains CloneFlags.sighand = false) :
    signalActions default flags caller = arcDefault default caller := by
  simp [signalActions, unshared]

theorem inheritsActions_iff :
    (if flags.contains CloneFlags.sighand then
      (signalActions default flags caller).1 = caller.actions
    else
      caller.fresh ≤ (signalActions default flags caller).1 ∧
        (signalActions default flags caller).2
          (signalActions default flags caller).1 = caller.tables caller.actions) ↔
      (flags.contains CloneFlags.sighand = true → flags.contains CloneFlags.parent = true →
        caller.parent = some (some caller.actions)) ∧
      (flags.contains CloneFlags.sighand = false → caller.tables caller.actions = default) := by
  cases shares : flags.contains CloneFlags.sighand with
  | true =>
      cases asParent : flags.contains CloneFlags.parent with
      | true => simp [signalActions_parent_iff shares asParent]
      | false => simp [signalActions_caller shares asParent]
  | false =>
      rw [signalActions_private shares]
      simp only [arcDefault, Bool.false_eq_true, if_false, if_true, Nat.le_refl,
        true_and, false_implies, forall_const]
      exact eq_comm

end Inherit

/-- An accepted clone of a process inherits the caller's signal state exactly
when there is nothing to copy. -/
theorem clone_inherits_signals_iff {Actions : Type} (default : Actions) (flags : BitVec 32)
    (env : CloneEnv) (caller : SignalCaller Actions)
    (cloned : ClonedSignals Actions)
    (accepted : sysCloneSignals default flags env caller = .ok cloned)
    (newProcess : (cloneFlags flags).contains CloneFlags.thread = false) :
    InheritsSignals (cloneFlags flags) caller cloned ↔
      SignalsInheritable default (cloneFlags flags) caller := by
  obtain ⟨plan, planned, made⟩ := bind_eq_ok_iff.mp accepted
  have decided := planClone_eq_ok planned
  rw [if_neg (by rw [newProcess]; decide)] at decided
  obtain ⟨rfl, -⟩ := decided
  have isCloned :
      cloned =
        ⟨(signalActions default (cloneFlags flags) caller).2,
          (signalActions default (cloneFlags flags) caller).1, 0⟩ :=
    (Except.ok.inj made).symm
  rw [isCloned, InheritsSignals, inheritsActions_iff, and_comm, SignalsInheritable]
  exact and_congr_left fun _ => eq_comm

def busyCaller : SignalCaller Nat where
  tables _ := 1
  fresh := 1
  actions := 0
  parent := some none
  blocked := 0x1
  actionsHeld := by decide
  parentHeld := nofun

def quietEnv : CloneEnv := ⟨.ok (), .ok (), true, .ok ()⟩

theorem clone_inherits_signals_iff_busyCaller :
    ∃ cloned, sysCloneSignals 0 17 quietEnv busyCaller = .ok cloned ∧
      (InheritsSignals (cloneFlags 17) busyCaller cloned ↔
        SignalsInheritable 0 (cloneFlags 17) busyCaller) :=
  ⟨_, rfl, clone_inherits_signals_iff 0 17 quietEnv busyCaller _ rfl (by decide)⟩

/-- `fork` by a caller with a handler and a blocked signal: the new process has
neither. -/
theorem fork_forgets_signals :
    ∃ cloned, sysCloneSignals 0 17 quietEnv busyCaller = .ok cloned ∧
      cloned.tables cloned.actions = 0 ∧
      busyCaller.tables busyCaller.actions = 1 ∧
      cloned.blocked = 0 ∧
      ¬ InheritsSignals (cloneFlags 17) busyCaller cloned := by
  refine ⟨_, rfl, rfl, rfl, rfl, ?_⟩
  rintro ⟨-, sameMask⟩
  exact absurd sameMask (by decide)

end Vegar.Task

import Mathlib.Data.List.InsertIdx
import Vegar.Lib.Roster
import Vegar.Task.Wait

/-!
# Waking for a child that ends

A `sys_waitpid` tests its children and falls asleep in two steps.  The wakeup
is kept when, at each notification, the calls it concerns still have a zombie
ahead of their test.
-/

namespace Vegar.Task

open Vegar.Lib

def NoLostChildExit (family : Family) : Prop :=
  ∀ (index : Nat) (call : WaitCall) (snapshot : List Nat), family.calls[index]? = some call →
    call.Blocking →
    call.phase = .asleep snapshot →
      ∀ pid ∈ family.children, ∀ child : Child, family.processes pid = some child →
        call.selects family.pgid pid child = true → child.phase ≠ .notified

def ZombieAhead (family : Family) : WaitpidPhase → Prop
  | .testing _ rest => ∃ pid ∈ rest, family.isZombie pid = true
  | .drowsy _ => False
  | .asleep _ => False
  | _ => True

def NotifySeen (family : Family) : FamilyAction → Prop
  | .notify pid =>
      ∀ (index : Nat) (call : WaitCall) (child : Child), family.calls[index]? = some call →
        call.Blocking →
        pid ∈ family.children →
        family.processes pid = some child →
        call.selects family.pgid pid child = true → ZombieAhead family call.phase.woken
  | _ => True

def Attended (family : Family) : Prop :=
  ∀ pid ∈ family.children, ∀ child : Child, family.processes pid = some child →
    child.phase = .notified →
      ∀ (index : Nat) (call : WaitCall), family.calls[index]? = some call → call.Blocking →
        call.selects family.pgid pid child = true → ZombieAhead family call.phase

theorem ZombieAhead.mono {source target : Family} {phase : WaitpidPhase}
    (ahead : ZombieAhead source phase)
    (stay : ∀ pid, source.isZombie pid = true → target.isZombie pid = true) :
    ZombieAhead target phase := by
  cases phase with
  | testing snapshot rest =>
      obtain ⟨pid, member, isZombie⟩ := ahead
      exact ⟨pid, member, stay pid isZombie⟩
  | _ => exact ahead

theorem ZombieAhead.woken {family : Family} {phase : WaitpidPhase}
    (ahead : ZombieAhead family phase) :
    ZombieAhead family phase.woken := by
  cases phase with
  | asleep snapshot => exact ahead.elim
  | _ => exact ahead

theorem ZombieAhead.callStep {family : Family} {call : WaitCall} {children : List Nat}
    {phase : WaitpidPhase} {pid : Nat} {child : Child}
    (moved : CallStep family call children phase)
    (member : pid ∈ family.children)
    (known : family.processes pid = some child)
    (notified : child.phase = .notified)
    (selected : call.selects family.pgid pid child = true)
    (ahead : ZombieAhead family call.phase) :
    ZombieAhead family phase := by
  cases moved with
  | panic _ => trivial
  | refuse error _ => trivial
  | collect _ =>
      refine ⟨pid, ?_, ?_⟩
      · rw [Family.collect, List.mem_filter, known]
        exact ⟨member, selected⟩
      · simp [Family.isZombie, known, Child.isZombie, notified]
  | find snapshot found rest _ _ => trivial
  | pass snapshot tested rest isTesting alive =>
      rw [isTesting] at ahead
      obtain ⟨zombie, inRest, isZombie⟩ := ahead
      refine ⟨zombie, ?_, isZombie⟩
      refine (List.mem_cons.mp inRest).resolve_left ?_
      rintro rfl
      rw [alive] at isZombie
      cases isZombie
  | giveUp snapshot _ _ => trivial
  | drowse snapshot isTesting _ =>
      rw [isTesting] at ahead
      obtain ⟨zombie, inRest, -⟩ := ahead
      cases inRest
  | peek found _ _ => trivial
  | free found _ _ => trivial
  | report found status _ => trivial
  | sleep snapshot isDrowsy =>
      rw [isDrowsy] at ahead
      exact ahead

theorem CallStep.children_subset {family : Family} {call : WaitCall} {children : List Nat}
    {phase : WaitpidPhase}
    (moved : CallStep family call children phase) :
    children ⊆ family.children := by
  cases moved with
  | free child _ _ => exact (List.filter_sublist).subset
  | _ => exact List.Subset.refl _

theorem Attended.step {source target : Family} {index : Nat} (attended : Attended source)
    (stepped : familyNext source (.step index) = some target) :
    Attended target := by
  obtain ⟨call, found, moved⟩ := Option.bind_eq_some_iff.mp stepped
  obtain ⟨children, phase, callStep, rfl⟩ := Family.callStep_of_stepCall moved
  intro pid member child known notified other after foundAfter blocks selected
  have oldMember : pid ∈ source.children := callStep.children_subset member
  rcases Roster.changed_or_same found foundAfter with ⟨rfl, rfl⟩ | ⟨different, foundOther⟩
  · have ahead := attended pid oldMember child known notified other call found blocks selected
    have kept := ZombieAhead.callStep callStep oldMember known notified selected ahead
    exact kept.mono fun zombie isZombie => isZombie
  · exact attended pid oldMember child known notified other after foundOther blocks selected

theorem Attended.setChild {source : Family} {pid : Nat} {child : Child} {children : List Nat}
    (attended : Attended source)
    (notYet : child.phase ≠ .notified)
    (kept : source.processes pid = none ∨ child.isZombie = true)
    (members : ∀ other ∈ children, other = pid ∨ other ∈ source.children) :
    Attended { source.setChild pid child with children := children } := by
  intro other member known isKnown notified index call found blocks selected
  simp only [Family.setChild] at isKnown
  by_cases same : other = pid
  · subst same
    rw [Function.update_self, Option.some.injEq] at isKnown
    subst isKnown
    exact (notYet notified).elim
  · rw [Function.update_of_ne same] at isKnown
    have ahead := attended other ((members other member).resolve_left same) known
        isKnown notified index call found blocks selected
    exact ahead.mono fun zombie isZombie =>
      Family.isZombie_setChild isZombie kept

theorem Attended.notify {source : Family} {pid : Nat} {child : Child} (attended : Attended source)
    (seen : NotifySeen source (.notify pid))
    (isKnown : source.processes pid = some child) :
    Attended (source.setChild pid { child with phase := .notified }).wakeAll := by
  have stay :
      ∀ zombie, source.isZombie zombie = true →
        (source.setChild pid { child with phase := .notified }).wakeAll.isZombie zombie = true :=
    fun zombie isZombie => Family.isZombie_setChild isZombie (Or.inr rfl)
  intro other member known otherKnown notified index after foundAfter blocks selected
  obtain ⟨call, found, rfl⟩ := Family.getElem?_wakeAll foundAfter
  simp only [Family.wakeAll, Family.setChild] at otherKnown
  by_cases same : other = pid
  · subst same
    rw [Function.update_self, Option.some.injEq] at otherKnown
    subst otherKnown
    have ahead := seen index call child found blocks member isKnown selected
    exact ahead.mono stay
  · rw [Function.update_of_ne same] at otherKnown
    have ahead := attended other member known otherKnown notified index call found blocks selected
    exact ahead.woken.mono stay

theorem Attended.next {source target : Family} {action : FamilyAction} (attended : Attended source)
    (seen : NotifySeen source action)
    (stepped : familyNext source action = some target) :
    Attended target := by
  cases action with
  | fork pid position pgid exitSignal =>
      obtain ⟨-, fresh, rfl⟩ := familyNext_fork stepped
      apply attended.setChild (by simp) (Or.inl fresh)
      intro other member
      exact List.eq_or_mem_of_mem_insertIdx member
  | wait pid exitCodePtr options =>
      obtain rfl := Option.some.inj stepped
      intro other member child known notified index after foundAfter blocks selected
      rcases Roster.old_or_added foundAfter with found | ⟨-, rfl⟩
      · exact attended other member child known notified index after found blocks selected
      · trivial
  | exit pid exitCode =>
      obtain ⟨child, -, rfl⟩ := familyNext_exit stepped
      exact attended.setChild (by simp) (Or.inr rfl) fun other member => Or.inr member
  | notify pid =>
      obtain ⟨child, known, rfl⟩ := familyNext_notify stepped
      exact attended.notify seen known
  | step index =>
      exact attended.step stepped

/-- In every run in which each notification finds the calls it concerns with
a zombie ahead, no end of a child is missed. -/
theorem waitpid_no_lost_exit_of_seen (family : Family)
    (reached : familyMachine.ReachableWithin NotifySeen family) :
    NoLostChildExit family := by
  have attended : Attended family := by
    apply Machine.ReachableWithin.invariant _ _ reached
    · rintro start ⟨-, noChildren, -⟩ pid member
      rw [noChildren] at member
      cases member
    · intro source action target _ attended seen stepped
      exact attended.next seen stepped
  intro index call snapshot found blocks isAsleep pid member child known selected notified
  have ahead := attended pid member child known notified index call found blocks selected
  rw [isAsleep] at ahead
  exact ahead

def twoWaits : List FamilyAction := [.fork 2 0 1 (some 17), .fork 3 1 1 (some 17), .wait 2 none 0,
    .wait 3 none 0, .step 0, .step 1, .step 0, .step 0, .step 0, .step 1,
    .step 1, .step 1, .exit 2 0, .notify 2, .step 1, .step 1, .step 1]

private theorem twoWaits_meets :
    familyMachine.Meets NotifySeen childless twoWaits := by
  refine .cons trivial rfl (.cons trivial rfl (.cons trivial rfl
    (.cons trivial rfl (.cons trivial rfl (.cons trivial rfl
      (.cons trivial rfl (.cons trivial rfl (.cons trivial rfl
        (.cons trivial rfl (.cons trivial rfl (.cons trivial rfl
          (.cons trivial rfl (.cons ?_ rfl (.cons trivial rfl
            (.cons trivial rfl (.cons trivial rfl trivial))))))))))))))))
  rintro (_ | _ | index) call child found _ _ known selected
  · obtain rfl := Option.some.inj found
    exact ⟨2, by decide, by decide⟩
  · obtain rfl := Option.some.inj found
    obtain rfl := Option.some.inj known
    exact absurd selected (by decide)
  · cases found

theorem waitpid_no_lost_exit_twoWaits :
    ∃ family, familyMachine.ReachableWithin NotifySeen family ∧
      (family.calls[1]?).map WaitCall.phase = some (.asleep [3]) ∧
      2 ∈ family.children ∧
      (family.processes 2).map Child.phase = some .notified ∧
      NoLostChildExit family := by
  obtain ⟨family, reached, observed⟩ :=
    familyMachine.exists_reachableWithin_of_exec twoWaits (fun family =>
        decide
          ((family.calls[1]?).map WaitCall.phase = some (.asleep [3]) ∧ 2 ∈ family.children ∧
            (family.processes 2).map Child.phase = some .notified))
      ⟨rfl, rfl, rfl⟩ twoWaits_meets (by decide)
  obtain ⟨isAsleep, member, isNotified⟩ := of_decide_eq_true observed
  exact ⟨family, reached, isAsleep, member, isNotified, waitpid_no_lost_exit_of_seen family reached⟩

/-- The child ends and notifies between the test of the only call and its
falling asleep. -/
theorem waitpid_notify_before_sleep_lost :
    ∃ family, familyMachine.Reachable family ∧ ¬ NoLostChildExit family := by
  obtain ⟨family, reached, observed⟩ :=
    @Machine.exists_reachable_of_exec _ _ familyMachine childless
      [.fork 2 0 1 (some 17), .wait (-1) none 0, .step 0, .step 0, .step 0,
        .exit 2 0, .notify 2, .step 0]
      (fun family =>
        decide
          ((family.calls[0]?).map WaitCall.pid = some (-1) ∧
            (family.calls[0]?).map WaitCall.options = some ⟨0⟩ ∧
            (family.calls[0]?).map WaitCall.phase = some (.asleep [2]) ∧
            2 ∈ family.children ∧
            family.processes 2 = some ⟨1, some 17, 0, .notified⟩))
      ⟨rfl, rfl, rfl⟩ (by decide)
  obtain ⟨isPid, isOptions, phase, member, known⟩ := of_decide_eq_true observed
  obtain ⟨call, found, isAsleep⟩ := Option.map_eq_some_iff.mp phase
  rw [found, Option.map_some, Option.some.injEq] at isPid isOptions
  refine ⟨family, reached, fun noLoss => ?_⟩
  refine noLoss 0 call [2] found ?_ isAsleep 2 member _ known ?_ rfl
  · rw [WaitCall.Blocking, isOptions]
    decide
  · rw [WaitCall.selects, isPid, isOptions]
    rfl

end Vegar.Task

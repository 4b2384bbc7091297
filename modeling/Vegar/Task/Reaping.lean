import Mathlib.Data.List.InsertIdx
import Vegar.Lib.Roster
import Vegar.Task.Wait

/-!
# Reaping a child once

Two calls of `sys_waitpid` can find the same zombie, because a call looks at
the children of the time it entered and frees what it finds in a later step.
A child is returned once when no call finds a zombie that is freed already or
that another call has found and is about to free.
-/

namespace Vegar.Task

open Vegar.Lib

/-- The call is past the `free` of the child. -/
def WaitpidPhase.Took (pid : Nat) : WaitpidPhase → Prop
  | .reporting child => child = pid
  | .returned (.ok child) _ => child = pid
  | _ => False

def WaitpidPhase.Holds (pid : Nat) (phase : WaitpidPhase) : Prop :=
  phase = .found pid ∨ phase.Took pid

def WaitpidPhase.Mentions (pid : Nat) : WaitpidPhase → Prop
  | .testing snapshot rest => pid ∈ snapshot ∨ pid ∈ rest
  | .drowsy snapshot => pid ∈ snapshot
  | .asleep snapshot => pid ∈ snapshot
  | phase => phase.Holds pid

/-- No child is returned by two calls without `WNOWAIT`. -/
def ReapedOnce (family : Family) : Prop := ∀ (first second : Nat) (one two : WaitCall) (pid : Nat)
    (oneStatus twoStatus : Option (BitVec 32)),
    family.calls[first]? = some one →
    family.calls[second]? = some two →
    one.Reaps → two.Reaps →
    (family.processes pid).isSome = true →
    one.phase = .returned (.ok pid) oneStatus →
    two.phase = .returned (.ok pid) twoStatus → first = second

/-- A call without `WNOWAIT` that comes to a zombie finds it among the
children still, and no other such call stands between its test and its
`free` of it. -/
def FindsUnclaimed (family : Family) : FamilyAction → Prop
  | .step index =>
      ∀ (call : WaitCall) (snapshot : List Nat) (pid : Nat) (rest : List Nat),
        family.calls[index]? = some call →
        call.Reaps →
        call.phase = .testing snapshot (pid :: rest) →
        family.isZombie pid = true →
          pid ∈ family.children ∧
            ∀ (other : Nat) (rival : WaitCall), family.calls[other]? = some rival →
              rival.Reaps → rival.phase ≠ .found pid
  | _ => True

structure Reaping (family : Family) : Prop where
  known :
    ∀ (index : Nat) (call : WaitCall) (pid : Nat),
      family.calls[index]? = some call → call.phase.Mentions pid →
        pid = 0 ∨ (family.processes pid).isSome = true
  noZero : family.processes 0 = none
  gone :
    ∀ (index : Nat) (call : WaitCall) (pid : Nat), pid ≠ 0 →
      family.calls[index]? = some call → call.Reaps →
      call.phase.Took pid → pid ∉ family.children
  single :
    ∀ (first second : Nat) (one two : WaitCall) (pid : Nat), pid ≠ 0 →
      family.calls[first]? = some one → family.calls[second]? = some two →
      one.Reaps → two.Reaps →
      one.phase.Holds pid → two.phase.Holds pid → first = second

variable {phase : WaitpidPhase} {pid : Nat}

theorem WaitpidPhase.mentions_of_holds (holds : phase.Holds pid) :
    phase.Mentions pid := by
  rcases holds with rfl | took
  · exact Or.inl rfl
  · cases phase with
    | reporting child => exact Or.inr took
    | returned result status => exact Or.inr took
    | _ => exact took.elim

theorem Reaping.reapedOnce {family : Family} (reaping : Reaping family) :
    ReapedOnce family := by
  intro first second one two pid oneStatus twoStatus foundOne foundTwo
    oneReaps twoReaps isChild oneReturned twoReturned
  have notZero : pid ≠ 0 := by
    rintro rfl
    rw [reaping.noZero] at isChild
    cases isChild
  have oneHolds : one.phase.Holds pid := by
    rw [oneReturned]
    exact Or.inr rfl
  have twoHolds : two.phase.Holds pid := by
    rw [twoReturned]
    exact Or.inr rfl
  exact reaping.single first second one two pid notZero foundOne foundTwo
      oneReaps twoReaps oneHolds twoHolds

variable {source : Family}

theorem Reaping.setCall {index : Nat} {call : WaitCall} {children : List Nat}
    (reaping : Reaping source)
    (found : source.calls[index]? = some call)
    (fewer : children ⊆ source.children)
    (mentions : ∀ pid, phase.Mentions pid → pid = 0 ∨ (source.processes pid).isSome = true)
    (took : call.Reaps → ∀ pid, pid ≠ 0 → phase.Took pid → call.phase.Took pid ∨ pid ∉ children)
    (holds :
      call.Reaps → ∀ pid, pid ≠ 0 → phase.Holds pid →
        call.phase.Holds pid ∨
          ∀ (other : Nat) (rival : WaitCall),
            source.calls[other]? = some rival → rival.Reaps → ¬ rival.phase.Holds pid) :
    Reaping ({ source with children := children }.setCall index phase) where
  known other after pid foundAfter mentioned := by
    rcases Roster.changed_or_same found foundAfter with ⟨rfl, rfl⟩ | ⟨_, foundOther⟩
    · exact mentions pid mentioned
    · exact reaping.known other after pid foundOther mentioned
  noZero := reaping.noZero
  gone other after pid notZero foundAfter reaps tookAfter := by
    rcases Roster.changed_or_same found foundAfter with ⟨rfl, rfl⟩ | ⟨_, foundOther⟩
    · rcases took reaps pid notZero tookAfter with already | freed
      · exact fun member =>
          reaping.gone other call pid notZero found reaps already (fewer member)
      · exact freed
    · exact fun member =>
        reaping.gone other after pid notZero foundOther reaps tookAfter (fewer member)
  single first second one two pid notZero foundOne foundTwo oneReaps
      twoReaps oneHolds twoHolds := by
    rcases Roster.changed_or_same found foundOne with ⟨rfl, rfl⟩ | ⟨_, oldOne⟩ <;>
    rcases Roster.changed_or_same found foundTwo with ⟨rfl, rfl⟩ | ⟨_, oldTwo⟩
    · rfl
    · rcases holds oneReaps pid notZero oneHolds with already | nobody
      · exact reaping.single first second call two pid notZero found oldTwo
            oneReaps twoReaps already twoHolds
      · exact (nobody second two oldTwo twoReaps twoHolds).elim
    · rcases holds twoReaps pid notZero twoHolds with already | nobody
      · exact reaping.single first second one call pid notZero oldOne found
            oneReaps twoReaps oneHolds already
      · exact (nobody first one oldOne oneReaps oneHolds).elim
    · exact reaping.single first second one two pid notZero oldOne oldTwo
          oneReaps twoReaps oneHolds twoHolds

theorem Reaping.setCall_idle {index : Nat} {call : WaitCall} (reaping : Reaping source)
    (found : source.calls[index]? = some call)
    (idle : ∀ pid, pid ≠ 0 → ¬ phase.Holds pid)
    (mentions : ∀ pid, phase.Mentions pid → pid = 0 ∨ (source.processes pid).isSome = true) :
    Reaping (source.setCall index phase) := by
  apply reaping.setCall found (List.Subset.refl _) mentions
  · intro _ pid notZero took
    exact (idle pid notZero (Or.inr took)).elim
  · intro _ pid notZero holds
    exact (idle pid notZero holds).elim

theorem Reaping.find {index : Nat} {call : WaitCall}
    {snapshot : List Nat} {child : Nat} {rest : List Nat}
    (reaping : Reaping source)
    (unclaimed : FindsUnclaimed source (.step index))
    (found : source.calls[index]? = some call)
    (isTesting : call.phase = .testing snapshot (child :: rest))
    (isZombie : source.isZombie child = true) :
    Reaping (source.setCall index (.found child)) := by
  apply reaping.setCall found (List.Subset.refl _)
  · rintro pid (isChild | ⟨⟨⟩⟩)
    obtain rfl := WaitpidPhase.found.inj isChild
    apply reaping.known index call child found
    rw [isTesting]
    exact Or.inr List.mem_cons_self
  · rintro _ pid _ ⟨⟩
  · rintro reaps pid notZero (isChild | ⟨⟨⟩⟩)
    obtain rfl := WaitpidPhase.found.inj isChild
    obtain ⟨member, noRival⟩ := unclaimed call snapshot child rest found reaps isTesting isZombie
    right
    rintro other rival foundRival rivalReaps (isFound | took)
    · exact noRival other rival foundRival rivalReaps isFound
    · exact reaping.gone other rival child notZero foundRival rivalReaps took member

theorem Reaping.step {source target : Family} {index : Nat} (reaping : Reaping source)
    (unclaimed : FindsUnclaimed source (.step index))
    (stepped : familyNext source (.step index) = some target) :
    Reaping target := by
  obtain ⟨call, found, moved⟩ := Option.bind_eq_some_iff.mp stepped
  obtain ⟨children, phase, callStep, rfl⟩ := Family.callStep_of_stepCall moved
  have mentioned := fun pid => reaping.known index call pid found
  cases callStep with
  | panic _ =>
      apply reaping.setCall_idle found
      · rintro pid _ (⟨⟨⟩⟩ | ⟨⟨⟩⟩)
      · rintro pid (⟨⟨⟩⟩ | ⟨⟨⟩⟩)
  | refuse error _ =>
      apply reaping.setCall_idle found
      · rintro pid _ (⟨⟨⟩⟩ | ⟨⟨⟩⟩)
      · rintro pid (⟨⟨⟩⟩ | ⟨⟨⟩⟩)
  | collect _ =>
      apply reaping.setCall_idle found
      · rintro pid _ (⟨⟨⟩⟩ | ⟨⟨⟩⟩)
      · intro pid collected
        have selected := (List.mem_filter.mp (or_self_iff.mp collected)).2
        cases known : source.processes pid with
        | none => simp [known] at selected
        | some child => exact Or.inr rfl
  | find snapshot child rest isTesting isZombie =>
      exact reaping.find unclaimed found isTesting isZombie
  | pass snapshot child rest isTesting _ =>
      apply reaping.setCall_idle found
      · rintro pid _ (⟨⟨⟩⟩ | ⟨⟨⟩⟩)
      · intro pid ahead
        apply mentioned
        rw [isTesting]
        exact ahead.imp_right (List.mem_cons_of_mem child)
  | giveUp snapshot _ _ =>
      apply reaping.setCall_idle found
      · rintro pid notZero (⟨⟨⟩⟩ | isZero)
        exact notZero isZero.symm
      · rintro pid (⟨⟨⟩⟩ | isZero)
        exact Or.inl isZero.symm
  | drowse snapshot isTesting _ =>
      apply reaping.setCall_idle found
      · rintro pid _ (⟨⟨⟩⟩ | ⟨⟨⟩⟩)
      · intro pid collected
        apply mentioned
        rw [isTesting]
        exact Or.inl collected
  | peek child isFound keeps =>
      apply reaping.setCall found (List.Subset.refl _)
      · rintro pid (⟨⟨⟩⟩ | isChild)
        apply mentioned
        rw [isFound, ← isChild]
        exact Or.inl rfl
      · exact fun reaps => (keeps reaps).elim
      · exact fun reaps => (keeps reaps).elim
  | free child isFound _ =>
      apply reaping.setCall found List.filter_sublist.subset
      · rintro pid (⟨⟨⟩⟩ | isChild)
        apply mentioned
        rw [isFound, ← isChild]
        exact Or.inl rfl
      · intro _ pid _ isChild
        have same : child = pid := isChild
        right
        simp [same]
      · rintro _ pid _ (⟨⟨⟩⟩ | isChild)
        rw [isFound, ← isChild]
        exact Or.inl (Or.inl rfl)
  | report child status isReporting =>
      apply reaping.setCall found (List.Subset.refl _)
      · rintro pid (⟨⟨⟩⟩ | isChild)
        apply mentioned
        rw [isReporting]
        exact Or.inr isChild
      · intro _ pid _ isChild
        rw [isReporting]
        exact Or.inl isChild
      · rintro _ pid _ (⟨⟨⟩⟩ | isChild)
        rw [isReporting]
        exact Or.inl (Or.inr isChild)
  | sleep snapshot isDrowsy =>
      apply reaping.setCall_idle found
      · rintro pid _ (⟨⟨⟩⟩ | ⟨⟨⟩⟩)
      · intro pid collected
        apply mentioned
        rw [isDrowsy]
        exact collected

theorem Reaping.setChild {child : Child} {children : List Nat}
    (reaping : Reaping source) (notZero : pid ≠ 0)
    (members :
      ∀ other ∈ children, other ∈ source.children ∨ (other = pid ∧ source.processes pid = none)) :
    Reaping { source.setChild pid child with children := children } where
  known index call other found mentioned := by
    by_cases same : other = pid
    · right
      simp [Family.setChild, same]
    · simp only [Family.setChild, Function.update_of_ne same]
      exact reaping.known index call other found mentioned
  noZero := by
    simp only [Family.setChild, Function.update_of_ne (Ne.symm notZero)]
    exact reaping.noZero
  gone index call other otherNotZero found reaps took member := by
    rcases members other member with old | ⟨rfl, fresh⟩
    · exact reaping.gone index call other otherNotZero found reaps took old
    · have mentioned := WaitpidPhase.mentions_of_holds (Or.inr took)
      rcases reaping.known index call other found mentioned with
        isZero | isSome
      · exact otherNotZero isZero
      · rw [fresh] at isSome
        cases isSome
  single := reaping.single

private theorem holds_woken (holds : phase.woken.Holds pid) : phase.Holds pid := by
  cases phase with
  | asleep snapshot => exact holds.elim nofun False.elim
  | _ => exact holds

private theorem took_woken (took : phase.woken.Took pid) : phase.Took pid := by
  cases phase with
  | asleep snapshot => cases took
  | _ => exact took

private theorem mentions_woken (mentioned : phase.woken.Mentions pid) : phase.Mentions pid := by
  cases phase with
  | asleep snapshot => exact or_self_iff.mp mentioned
  | _ => exact mentioned

theorem Reaping.wakeAll (reaping : Reaping source) : Reaping source.wakeAll where
  known index after pid foundAfter mentioned := by
    obtain ⟨call, found, rfl⟩ := Family.getElem?_wakeAll foundAfter
    exact reaping.known index call pid found (mentions_woken mentioned)
  noZero := reaping.noZero
  gone index after pid notZero foundAfter reaps took := by
    obtain ⟨call, found, rfl⟩ := Family.getElem?_wakeAll foundAfter
    exact reaping.gone index call pid notZero found reaps (took_woken took)
  single first second one two pid notZero foundOne foundTwo oneReaps
      twoReaps oneHolds twoHolds := by
    obtain ⟨oldOne, wasOne, rfl⟩ := Family.getElem?_wakeAll foundOne
    obtain ⟨oldTwo, wasTwo, rfl⟩ := Family.getElem?_wakeAll foundTwo
    exact reaping.single first second oldOne oldTwo pid notZero wasOne wasTwo
        oneReaps twoReaps (holds_woken oneHolds) (holds_woken twoHolds)

theorem Reaping.wait {new : WaitCall} (reaping : Reaping source)
    (isEntered : new.phase = .entered) :
    Reaping { source with calls := source.calls ++ [new] } := by
  have idle : ∀ pid, ¬ new.phase.Holds pid := by
    rw [isEntered]
    rintro pid (⟨⟨⟩⟩ | ⟨⟨⟩⟩)
  refine ⟨?_, reaping.noZero, ?_, ?_⟩
  · intro index after pid foundAfter mentioned
    rcases Roster.old_or_added foundAfter with found | ⟨-, rfl⟩
    · exact reaping.known index after pid found mentioned
    · rw [isEntered] at mentioned
      rcases mentioned with ⟨⟨⟩⟩ | ⟨⟨⟩⟩
  · intro index after pid notZero foundAfter reaps took
    rcases Roster.old_or_added foundAfter with found | ⟨-, rfl⟩
    · exact reaping.gone index after pid notZero found reaps took
    · exact (idle pid (Or.inr took)).elim
  · intro first second one two pid notZero foundOne foundTwo oneReaps twoReaps oneHolds twoHolds
    rcases Roster.old_or_added foundOne with oldOne | ⟨-, rfl⟩
    · rcases Roster.old_or_added foundTwo with oldTwo | ⟨-, rfl⟩
      · exact reaping.single first second one two pid notZero oldOne oldTwo
            oneReaps twoReaps oneHolds twoHolds
      · exact (idle pid twoHolds).elim
    · exact (idle pid oneHolds).elim

theorem Reaping.next {target : Family} {action : FamilyAction} (reaping : Reaping source)
    (unclaimed : FindsUnclaimed source action)
    (stepped : familyNext source action = some target) :
    Reaping target := by
  have notZero : ∀ {pid : Nat} {child : Child}, source.processes pid = some child → pid ≠ 0 := by
    rintro pid child known rfl
    rw [reaping.noZero] at known
    cases known
  cases action with
  | fork pid position pgid exitSignal =>
      obtain ⟨isNew, fresh, rfl⟩ := familyNext_fork stepped
      apply reaping.setChild isNew
      intro other member
      rcases List.eq_or_mem_of_mem_insertIdx member with rfl | old
      · exact Or.inr ⟨rfl, fresh⟩
      · exact Or.inl old
  | wait pid exitCodePtr options =>
      obtain rfl := Option.some.inj stepped
      exact reaping.wait rfl
  | exit pid exitCode =>
      obtain ⟨child, known, rfl⟩ := familyNext_exit stepped
      exact reaping.setChild (notZero known) fun other => Or.inl
  | notify pid =>
      obtain ⟨child, known, rfl⟩ := familyNext_notify stepped
      have changed : Reaping (source.setChild pid { child with phase := .notified }) :=
        reaping.setChild (notZero known) fun other => Or.inl
      exact changed.wakeAll
  | step index =>
      exact reaping.step unclaimed stepped

/-- In every run in which no call finds a zombie that is freed or that
another call is about to free, each child is returned at most once. -/
theorem waitpid_reaps_once_of_unclaimed (family : Family)
    (reached : familyMachine.ReachableWithin FindsUnclaimed family) :
    ReapedOnce family := by
  apply Reaping.reapedOnce
  apply Machine.ReachableWithin.invariant _ _ reached
  · rintro start ⟨noProcesses, -, noCalls⟩
    have noCall : ∀ (index : Nat) (call : WaitCall), start.calls[index]? ≠ some call := by
      simp [noCalls]
    refine ⟨?_, ?_, ?_, ?_⟩
    · intro index call pid found
      exact (noCall index call found).elim
    · rw [noProcesses]
    · intro index call pid _ found
      exact (noCall index call found).elim
    · intro first second one two pid _ found
      exact (noCall first one found).elim
  · intro source action target _ reaping unclaimed stepped
    exact reaping.next unclaimed stepped

def reapAndRetry : List FamilyAction :=
  [.fork 2 0 1 (some 17), .wait (-1) none 0, .step 0, .exit 2 0, .step 0,
    .step 0, .step 0, .wait (-1) none 0, .step 1]

private theorem reapAndRetry_meets :
    familyMachine.Meets FindsUnclaimed childless reapAndRetry := by
  refine .cons trivial rfl (.cons trivial rfl (.cons ?_ rfl
    (.cons trivial rfl (.cons ?_ rfl (.cons ?_ rfl (.cons ?_ rfl
      (.cons trivial rfl (.cons ?_ rfl trivial))))))))
  all_goals
    intro call snapshot pid rest found reaps isTesting isZombie
    obtain rfl := Option.some.inj found
    cases isTesting
  refine ⟨by decide, ?_⟩
  rintro (_ | other) rival foundRival _ isFound
  · obtain rfl := Option.some.inj foundRival
    cases isFound
  · cases foundRival

theorem waitpid_reaps_once_reapAndRetry :
    ∃ family, familyMachine.ReachableWithin FindsUnclaimed family ∧
      (family.calls[0]?).map WaitCall.phase = some (.returned (.ok 2) none) ∧
      (family.calls[1]?).map WaitCall.phase = some (.returned (.error .ECHILD) none) ∧
      ReapedOnce family := by
  obtain ⟨family, reached, observed⟩ :=
    familyMachine.exists_reachableWithin_of_exec reapAndRetry (fun family =>
        decide
          ((family.calls[0]?).map WaitCall.phase = some (.returned (.ok 2) none) ∧
            (family.calls[1]?).map WaitCall.phase = some (.returned (.error .ECHILD) none)))
      ⟨rfl, rfl, rfl⟩ reapAndRetry_meets (by decide)
  obtain ⟨reaped, refused⟩ := of_decide_eq_true observed
  exact ⟨family, reached, reaped, refused, waitpid_reaps_once_of_unclaimed family reached⟩

/-- Two calls test the only child before either of them frees it. -/
theorem waitpid_two_calls_reap_one_child :
    ∃ family, familyMachine.Reachable family ∧ ¬ ReapedOnce family := by
  obtain ⟨family, reached, observed⟩ :=
    @Machine.exists_reachable_of_exec _ _ familyMachine childless
      [.fork 2 0 1 (some 17), .wait (-1) none 0, .wait (-1) none 0, .step 0,
        .step 1, .exit 2 0, .step 0, .step 1, .step 0, .step 1, .step 0,
        .step 1]
      (fun family =>
        decide
          ((family.calls[0]?).map WaitCall.options = some ⟨0⟩ ∧
            (family.calls[1]?).map WaitCall.options = some ⟨0⟩ ∧
            (family.calls[0]?).map WaitCall.phase = some (.returned (.ok 2) none) ∧
            (family.calls[1]?).map WaitCall.phase = some (.returned (.ok 2) none) ∧
            (family.processes 2).isSome = true))
      ⟨rfl, rfl, rfl⟩ (by decide)
  obtain ⟨oneOptions, twoOptions, onePhase, twoPhase, isChild⟩ := of_decide_eq_true observed
  obtain ⟨one, foundOne, oneReturned⟩ := Option.map_eq_some_iff.mp onePhase
  obtain ⟨two, foundTwo, twoReturned⟩ := Option.map_eq_some_iff.mp twoPhase
  rw [foundOne, Option.map_some, Option.some.injEq] at oneOptions
  rw [foundTwo, Option.map_some, Option.some.injEq] at twoOptions
  refine ⟨family, reached, fun once => ?_⟩
  have same : 0 = 1 := by
    refine once 0 1 one two 2 none none foundOne foundTwo ?_ ?_ isChild oneReturned twoReturned
    · rw [WaitCall.Reaps, oneOptions]
      decide
    · rw [WaitCall.Reaps, twoOptions]
      decide
  cases same

end Vegar.Task

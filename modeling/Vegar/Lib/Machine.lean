import Mathlib.Logic.Function.Basic

/-!
# Machines with a partial step function

A machine has a set of starting states and a step function that is undefined
where an action is not enabled.  Reachability is taken relative to a
condition on the steps, so that "every run" and "every run whose steps all
meet a condition" are two instances of one notion.
-/

namespace Vegar.Lib

universe u v

structure Machine (State : Type u) (Action : Type v) where
  start : State → Prop
  next : State → Action → Option State

namespace Machine

variable {State : Type u} {Action : Type v}

/-- The states at the end of runs whose steps all meet `allowed`. -/
inductive ReachableWithin (machine : Machine State Action)
    (allowed : State → Action → Prop) : State → Prop
  | start {state : State} : machine.start state → ReachableWithin machine allowed state
  | step {source target : State} (action : Action) : ReachableWithin machine allowed source →
      allowed source action →
      machine.next source action = some target →
      ReachableWithin machine allowed target

def Reachable (machine : Machine State Action) : State → Prop :=
  machine.ReachableWithin fun _ _ => True

variable {machine : Machine State Action}

theorem Reachable.start {state : State} (started : machine.start state) :
    machine.Reachable state :=
  ReachableWithin.start started

theorem Reachable.step {machine : Machine State Action} {source target : State}
    (reached : machine.Reachable source) (action : Action)
    (stepped : machine.next source action = some target) :
    machine.Reachable target :=
  ReachableWithin.step action reached trivial stepped

theorem ReachableWithin.mono {allowed broader : State → Action → Prop} {state : State}
    (reached : machine.ReachableWithin allowed state)
    (weaker : ∀ source action, allowed source action → broader source action) :
    machine.ReachableWithin broader state := by
  induction reached with
  | start started => exact .start started
  | step action _ meets stepped ih =>
      exact .step action ih (weaker _ _ meets) stepped

/-- A predicate that holds at the start and is kept by every allowed step
from a reachable state holds in every reachable state. -/
theorem ReachableWithin.invariant {machine : Machine State Action} {allowed : State → Action → Prop}
    {Invariant : State → Prop}
    (initially : ∀ state, machine.start state → Invariant state)
    (preserved :
      ∀ source action target, machine.ReachableWithin allowed source → Invariant source →
        allowed source action →
        machine.next source action = some target →
        Invariant target)
    {state : State}
    (reached : machine.ReachableWithin allowed state) :
    Invariant state := by
  induction reached with
  | start started =>
      exact initially _ started
  | step action reached meets stepped ih =>
      exact preserved _ action _ reached ih meets stepped

theorem Reachable.invariant {machine : Machine State Action} {Invariant : State → Prop}
    (initially : ∀ state, machine.start state → Invariant state)
    (preserved :
      ∀ source action target, machine.Reachable source → Invariant source →
        machine.next source action = some target →
        Invariant target)
    {state : State}
    (reached : machine.Reachable state) :
    Invariant state := by
  apply ReachableWithin.invariant initially _ reached
  intro source action target reachedSource holds _ stepped
  exact preserved source action target reachedSource holds stepped

def exec (machine : Machine State Action) : State → List Action → Option State
  | state, [] => some state
  | state, action :: rest =>
      (machine.next state action).bind fun target =>
        machine.exec target rest

@[simp]
theorem exec_nil (machine : Machine State Action) (state : State) :
    machine.exec state [] = some state :=
  rfl

theorem exec_cons (machine : Machine State Action) (state : State)
    (action : Action) (rest : List Action) :
    machine.exec state (action :: rest) = (machine.next state action).bind fun target =>
        machine.exec target rest :=
  rfl

variable {source target : State} {action : Action}

theorem exec_cons_eq_some {rest : List Action} :
    machine.exec source (action :: rest) = some target ↔
      ∃ middle, machine.next source action = some middle ∧ machine.exec middle rest = some target :=
  Option.bind_eq_some_iff

theorem exec_append (machine : Machine State Action) (state : State) (first second : List Action) :
    machine.exec state (first ++ second) = (machine.exec state first).bind fun target =>
        machine.exec target second := by
  induction first generalizing state with
  | nil => rfl
  | cons action rest ih =>
      rw [List.cons_append, exec_cons, exec_cons]
      cases machine.next state action with
      | none => rfl
      | some target => exact ih target

def Repeats (machine : Machine State Action) (action : Action) (source target : State) : Prop :=
  ∃ times, machine.exec source (List.replicate times action) = some target

theorem Repeats.refl (machine : Machine State Action) (action : Action) (state : State) :
    machine.Repeats action state state :=
  ⟨0, rfl⟩

theorem Repeats.head {middle : State} (stepped : machine.next source action = some middle)
    (repeated : machine.Repeats action middle target) :
    machine.Repeats action source target := by
  obtain ⟨times, executed⟩ := repeated
  refine ⟨times + 1, ?_⟩
  rw [List.replicate_succ, exec_cons, stepped]
  exact executed

def Meets (machine : Machine State Action) (allowed : State → Action → Prop) :
    State → List Action → Prop
  | _, [] => True
  | state, action :: rest =>
      allowed state action ∧
        ∀ target, machine.next state action = some target → machine.Meets allowed target rest

theorem Meets.cons {machine : Machine State Action} {allowed : State → Action → Prop}
    {source target : State} {action : Action} {rest : List Action}
    (meets : allowed source action)
    (stepped : machine.next source action = some target)
    (later : machine.Meets allowed target rest) :
    machine.Meets allowed source (action :: rest) := by
  refine ⟨meets, ?_⟩
  intro reached alsoStepped
  obtain rfl := Option.some.inj (stepped.symm.trans alsoStepped)
  exact later

variable {allowed : State → Action → Prop}

theorem meets_cons_iff {rest : List Action} (stepped : machine.next source action = some target) :
    machine.Meets allowed source (action :: rest) ↔
      allowed source action ∧ machine.Meets allowed target rest := by
  constructor
  · intro meets
    exact ⟨meets.1, meets.2 target stepped⟩
  · intro both
    exact Meets.cons both.1 stepped both.2

variable {actions : List Action}

theorem Meets.exists_allowed (meets : machine.Meets allowed source actions)
    (executed : machine.exec source actions = some target)
    (member : action ∈ actions) :
    ∃ state, allowed state action := by
  induction actions generalizing source with
  | nil => cases member
  | cons first rest ih =>
      obtain ⟨middle, stepped, restExecuted⟩ := exec_cons_eq_some.mp executed
      rcases List.mem_cons.mp member with rfl | later
      · exact ⟨source, meets.1⟩
      · exact ih (meets.2 middle stepped) restExecuted later

theorem ReachableWithin.exec :
    ∀ {actions : List Action} {source target : State}, machine.ReachableWithin allowed source →
      machine.Meets allowed source actions →
      machine.exec source actions = some target →
      machine.ReachableWithin allowed target
  | [], source, target, reached, _, executed => by
      simp only [exec_nil, Option.some.injEq] at executed
      subst target
      exact reached
  | action :: rest, source, target, reached, meets, executed => by
      obtain ⟨middle, stepped, restExecuted⟩ := exec_cons_eq_some.mp executed
      exact ReachableWithin.exec (reached.step action meets.1 stepped)
          (meets.2 middle stepped) restExecuted

def checkMeets (machine : Machine State Action) (allowed : State → Action → Prop)
    [∀ state action, Decidable (allowed state action)] :
    State → List Action → Bool
  | _, [] => true
  | state, action :: rest =>
      decide (allowed state action) &&
        match machine.next state action with
        | none => true
        | some target => machine.checkMeets allowed target rest

theorem meets_of_checkMeets [∀ state action, Decidable (allowed state action)] {state : State}
    (checked : machine.checkMeets allowed state actions = true) :
    machine.Meets allowed state actions := by
  induction actions generalizing state with
  | nil => trivial
  | cons action rest ih =>
      obtain ⟨first, later⟩ := Bool.and_eq_true_iff.mp checked
      refine ⟨of_decide_eq_true first, ?_⟩
      intro target stepped
      rw [stepped] at later
      exact ih later

theorem meets_of_forall (state : State)
    (everywhere : ∀ action ∈ actions, ∀ state, allowed state action) :
    machine.Meets allowed state actions := by
  induction actions generalizing state with
  | nil => trivial
  | cons action rest ih =>
      refine ⟨everywhere action List.mem_cons_self state, ?_⟩
      intro target _
      exact ih target fun later member =>
        everywhere later (List.mem_cons_of_mem action member)

theorem meets_trivial (machine : Machine State Action) (actions : List Action) (state : State) :
    machine.Meets (fun _ _ => True) state actions :=
  meets_of_forall state fun _ _ _ => trivial

theorem Reachable.exec (reached : machine.Reachable source)
    (executed : machine.exec source actions = some target) :
    machine.Reachable target :=
  ReachableWithin.exec reached (meets_trivial machine actions source) executed

theorem exists_reachableWithin_of_exec
    (machine : Machine State Action) {allowed : State → Action → Prop}
    {source : State} (actions : List Action) (observe : State → Bool)
    (started : machine.start source)
    (meets : machine.Meets allowed source actions)
    (observed : (machine.exec source actions).map observe = some true) :
    ∃ state, machine.ReachableWithin allowed state ∧ observe state = true := by
  obtain ⟨state, executed, seen⟩ := Option.map_eq_some_iff.mp observed
  have reached : machine.ReachableWithin allowed source := ReachableWithin.start started
  exact ⟨state, reached.exec meets executed, seen⟩

theorem exists_reachable_of_exec (machine : Machine State Action)
    {source : State} (actions : List Action) (observe : State → Bool)
    (started : machine.start source)
    (observed : (machine.exec source actions).map observe = some true) :
    ∃ state, machine.Reachable state ∧ observe state = true :=
  machine.exists_reachableWithin_of_exec actions observe started
    (machine.meets_trivial actions source) observed

/-! ## Views -/

section Views

universe w

variable {View : Type w}

/-- Seen through `view`, the steps of a machine from its reachable states are
exactly those of another one. -/
structure Refines (concrete : Machine State Action)
    (abstract : Machine View Action) (view : State → View) : Prop where
  start : ∀ state, concrete.start state → abstract.start (view state)
  next :
    ∀ state action, concrete.Reachable state →
      (concrete.next state action).map view = abstract.next (view state) action

variable {concrete : Machine State Action} {abstract : Machine View Action}
  {view : State → View} {state : State}

theorem Refines.exec (refines : concrete.Refines abstract view)
    (reached : concrete.Reachable state) (actions : List Action) :
    (concrete.exec state actions).map view = abstract.exec (view state) actions := by
  induction actions generalizing state with
  | nil => rfl
  | cons action rest ih =>
      rw [exec_cons, exec_cons, ← refines.next state action reached]
      cases stepped : concrete.next state action with
      | none => rfl
      | some target => exact ih (reached.step action stepped)

end Views

/-! ## Simulation -/

section Simulation

universe w x

variable {View : Type w} {Label : Type x}

def trace (machine : Machine State Action) (labels : State → Action → List Label) :
    State → List Action → List Label
  | _, [] => []
  | state, action :: rest =>
      labels state action ++
        match machine.next state action with
        | none => []
        | some target => machine.trace labels target rest

/-- Seen through `view`, every step of a machine from its reachable states is
the run of another one that the labels of the step spell. -/
structure Simulates (concrete : Machine State Action)
    (abstract : Machine View Label) (view : State → View)
    (labels : State → Action → List Label) : Prop where
  next :
    ∀ source action target, concrete.Reachable source → concrete.next source action = some target →
      abstract.exec (view source) (labels source action) = some (view target)

theorem Simulates.exec {concrete : Machine State Action} {abstract : Machine View Label}
    {view : State → View} {labels : State → Action → List Label}
    (simulates : concrete.Simulates abstract view labels)
    (reached : concrete.Reachable source)
    (executed : concrete.exec source actions = some target) :
    abstract.exec (view source) (concrete.trace labels source actions) = some (view target) := by
  induction actions generalizing source with
  | nil =>
      obtain rfl := Option.some.inj executed
      rfl
  | cons action rest ih =>
      obtain ⟨middle, stepped, restExecuted⟩ := exec_cons_eq_some.mp executed
      have first := simulates.next source action middle reached stepped
      have later := ih (reached.step action stepped) restExecuted
      rw [trace, stepped, exec_append, first]
      exact later

end Simulation

end Machine

end Vegar.Lib

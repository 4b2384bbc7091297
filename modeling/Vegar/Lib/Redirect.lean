import Mathlib.Logic.Function.Basic
import Mathlib.Logic.Relation

/-!
# Tables of redirections

A table sends some names to other names.  Resolving a name follows one entry.
Resolving twice is the same as resolving once when no entry leads to a name
that is redirected further.
-/

namespace Vegar.Lib.Redirect

universe u

variable {Name : Type u}

def resolve (table : Name → Option Name) (name : Name) : Name := (table name).getD name

def Settled (table : Name → Option Name) (name : Name) : Prop :=
  ∀ further, table name = some further → further = name

def Flat (table : Name → Option Name) : Prop :=
  ∀ name target, table name = some target → Settled table target

def Connected (table : Name → Option Name) : Name → Name → Prop :=
  Relation.EqvGen fun name target => table name = some target

theorem resolve_of_some {table : Name → Option Name} {name target : Name}
    (entry : table name = some target) : resolve table name = target := by
  rw [resolve, entry, Option.getD_some]

theorem resolve_of_none {table : Name → Option Name} {name : Name}
    (noEntry : table name = none) : resolve table name = name := by
  rw [resolve, noEntry, Option.getD_none]

theorem Settled.resolve_eq {table : Name → Option Name} {name : Name}
    (settled : Settled table name) : resolve table name = name := by
  cases entry : table name with
  | none =>
      exact resolve_of_none entry
  | some target =>
      rw [resolve_of_some entry]
      exact settled target entry

namespace Flat

variable {table : Name → Option Name}

theorem empty : Flat fun _ : Name => none := by
  intro name target entry
  cases entry

theorem mono {fewer : Name → Option Name} (flat : Flat table)
    (kept : ∀ name target, fewer name = some target → table name = some target) :
    Flat fewer := by
  intro name target entry further second
  exact flat name target (kept name target entry) further (kept target further second)

theorem settled_resolve (flat : Flat table) (name : Name) : Settled table (resolve table name) := by
  cases entry : table name with
  | none =>
      intro further second
      rw [resolve_of_none entry, entry] at second
      cases second
  | some target =>
      rw [resolve_of_some entry]
      exact flat name target entry

theorem resolve_resolve (flat : Flat table) (name : Name) :
    resolve table (resolve table name) = resolve table name :=
  (flat.settled_resolve name).resolve_eq

theorem resolve_eq_of_connected {left right : Name} (flat : Flat table)
    (connected : Connected table left right) :
    resolve table left = resolve table right := by
  induction connected with
  | rel name target entry =>
      rw [resolve_of_some entry, (flat name target entry).resolve_eq]
  | refl name =>
      rfl
  | symm left right _ ih =>
      exact ih.symm
  | trans left middle right _ _ first second =>
      exact first.trans second

/-- Redirecting a name to a settled one keeps the table flat exactly when
nothing else leads to that name, or it is redirected to itself. -/
theorem update_iff [DecidableEq Name] {name target : Name} (flat : Flat table)
    (settled : Settled table target) :
    Flat (Function.update table name (some target)) ↔
      target = name ∨ ∀ other, other ≠ name → table other ≠ some name := by
  constructor
  · intro flatAfter
    rw [or_iff_not_imp_left]
    intro moved other different entry
    refine moved (flatAfter other name ?_ target ?_)
    · rw [Function.update_of_ne different, entry]
    · rw [Function.update_self]
  · intro condition source middle entry further second
    have unlessName : middle ≠ name → table middle = some further := by
      intro different
      rwa [Function.update_of_ne different] at second
    by_cases isName : middle = name
    · subst isName
      rw [Function.update_self, Option.some.injEq] at second
      subst second
      by_cases same : source = middle
      · subst same
        rw [Function.update_self, Option.some.injEq] at entry
        exact entry
      · rw [Function.update_of_ne same] at entry
        exact condition.resolve_right fun none => none source same entry
    · by_cases same : source = name
      · subst same
        rw [Function.update_self, Option.some.injEq] at entry
        subst entry
        exact settled further (unlessName isName)
      · rw [Function.update_of_ne same] at entry
        exact flat source middle entry further (unlessName isName)

end Flat

end Vegar.Lib.Redirect

import Mathlib.Algebra.BigOperators.Group.List.Basic
import Mathlib.Data.List.Basic
import Mathlib.Tactic.Abel

/-!
# Numbered items

Lists whose items keep their numbers: an item is added at the end, or changed
at its place.  What stands under a number afterwards stood there before, but
for the added or the changed item.
-/

namespace Vegar.Lib.Roster

universe u

variable {α : Type u} {items : List α} {item after : α} {index asked : Nat}

theorem old_or_added {added : α} (found : (items ++ [added])[index]? = some item) :
    items[index]? = some item ∨ index = items.length ∧ item = added := by
  rw [List.getElem?_append] at found
  split at found
  · exact Or.inl found
  · rw [List.getElem?_singleton] at found
    obtain ⟨atEnd, isAdded⟩ := Option.ite_none_right_eq_some.mp found
    exact Or.inr ⟨by omega, (Option.some.inj isAdded).symm⟩

theorem forall_mem_concat {property : α → Prop} {added : α}
    (ofOld : ∀ item ∈ items, property item) (ofAdded : property added) :
    ∀ item ∈ items ++ [added], property item :=
  List.forall_mem_append.mpr ⟨ofOld, List.forall_mem_singleton.mpr ofAdded⟩

theorem getElem?_append_of_some (found : items[index]? = some item) (added : List α) :
    (items ++ added)[index]? = some item :=
  (List.getElem?_append_left (List.getElem?_eq_some_iff.mp found).1).trans found

theorem exists_before_modify {change : α → α}
    (found : (items.modify index change)[asked]? = some after) :
    ∃ before, items[asked]? = some before ∧
      (asked = index ∧ after = change before ∨ asked ≠ index ∧ after = before) := by
  rw [List.getElem?_modify] at found
  obtain ⟨before, beforeFound, isAfter⟩ := Option.map_eq_some_iff.mp found
  refine ⟨before, beforeFound, ?_⟩
  split at isAfter
  · next same => exact Or.inl ⟨same.symm, isAfter.symm⟩
  · next other => exact Or.inr ⟨Ne.symm other, isAfter.symm⟩

theorem changed_or_same {change : α → α} (known : items[index]? = some item)
    (found : (items.modify index change)[asked]? = some after) :
    asked = index ∧ after = change item ∨ asked ≠ index ∧ items[asked]? = some after := by
  obtain ⟨before, beforeFound, ⟨rfl, isChanged⟩ | ⟨other, same⟩⟩ := exists_before_modify found
  · obtain rfl := Option.some.inj (known.symm.trans beforeFound)
    exact Or.inl ⟨rfl, isChanged⟩
  · rw [← same] at beforeFound
    exact Or.inr ⟨other, beforeFound⟩

theorem mem_or_changed {change : α → α} (member : item ∈ items.modify index change) :
    item ∈ items ∨ ∃ before ∈ items, item = change before := by
  obtain ⟨asked, found⟩ := List.mem_iff_getElem?.mp member
  obtain ⟨before, beforeFound, ⟨-, isChanged⟩ | ⟨-, same⟩⟩ := exists_before_modify found
  · exact Or.inr ⟨before, List.mem_of_getElem? beforeFound, isChanged⟩
  · rw [same]
    exact Or.inl (List.mem_of_getElem? beforeFound)

theorem getElem?_modify_of_some (known : items[index]? = some item) (change : α → α) :
    (items.modify index change)[index]? = some (change item) := by
  rw [List.getElem?_modify_eq, known]
  rfl

theorem map_getElem?_modify {β : Type*} {field : α → β} {change : α → α}
    (keeps : ∀ item, field (change item) = field item) :
    ((items.modify index change)[asked]?).map field = (items[asked]?).map field := by
  rw [List.getElem?_modify]
  cases items[asked]? with
  | none => rfl
  | some item =>
      by_cases same : index = asked
      · simp [same, keeps]
      · simp [same]

theorem replaced_or_same (found : (items.set index after)[asked]? = some item) :
    asked = index ∧ item = after ∨ asked ≠ index ∧ items[asked]? = some item := by
  rw [List.getElem?_set] at found
  split at found
  · next same =>
      obtain ⟨-, isAfter⟩ := Option.ite_none_right_eq_some.mp found
      exact Or.inl ⟨same.symm, (Option.some.inj isAfter).symm⟩
  · next other => exact Or.inr ⟨Ne.symm other, found⟩

theorem map_set_of_same {β : Type*} {field : α → β} (known : items[index]? = some item)
    (same : field after = field item) :
    (items.set index after).map field = items.map field := by
  have here : (items.map field)[index]? = some (field item) := by
    rw [List.getElem?_map, known, Option.map_some]
  obtain ⟨inside, isField⟩ := List.getElem?_eq_some_iff.mp here
  rw [List.map_set, same, ← isField, List.set_getElem_self inside]

theorem forall_mem_set {property : α → Prop} (ofOld : ∀ item ∈ items, property item)
    (ofAfter : property after) :
    ∀ item ∈ items.set index after, property item := by
  intro item member
  rcases List.mem_or_eq_of_mem_set member with old | rfl
  · exact ofOld item old
  · exact ofAfter

theorem sum_map_set_add (weight : α → Nat) (known : items[index]? = some item) :
    ((items.set index after).map weight).sum + weight item =
      (items.map weight).sum + weight after := by
  induction items generalizing index with
  | nil => cases known
  | cons first others ih =>
      cases index with
      | zero =>
          obtain rfl := Option.some.inj known
          rw [List.set_cons_zero, List.map_cons, List.map_cons, List.sum_cons, List.sum_cons]
          omega
      | succ index =>
          rw [List.getElem?_cons_succ] at known
          have changed := ih known
          rw [List.set_cons_succ, List.map_cons, List.map_cons, List.sum_cons, List.sum_cons]
          omega

theorem sum_map_modify {M : Type*} [AddCommGroup M] (weight : α → M)
    (known : items[index]? = some item) (change : α → α) :
    ((items.modify index change).map weight).sum =
      (items.map weight).sum + (weight (change item) - weight item) := by
  induction items generalizing index with
  | nil => cases known
  | cons first others ih =>
      cases index with
      | zero =>
          obtain rfl := Option.some.inj known
          rw [List.modify_zero_cons, List.map_cons, List.map_cons, List.sum_cons, List.sum_cons]
          abel
      | succ index =>
          rw [List.getElem?_cons_succ] at known
          have changed := ih known
          rw [List.modify_succ_cons, List.map_cons, List.map_cons,
            List.sum_cons, List.sum_cons, changed, add_assoc]

end Vegar.Lib.Roster

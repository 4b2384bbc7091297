import Mathlib.Data.List.Basic

/-!
# Tables with numbered slots

`flatten_objects::FlattenObjects`, a table of at most `cap` objects under
their numbers.  Which free number `add` takes is left to the crate.
-/

namespace Vegar.File

/-- `FlattenObjects<T, CAP>`. -/
@[ext]
structure FlattenObjects (α : Type) (cap : Nat) where
  slots : Vector (Option α) cap
  deriving DecidableEq

namespace FlattenObjects

variable {α : Type} {cap : Nat}

/-- `FlattenObjects::new`. -/
def new : FlattenObjects α cap := ⟨Vector.replicate cap none⟩

/-- `get`, which finds nothing under a number that is not below `cap`. -/
def get (table : FlattenObjects α cap) (id : Nat) : Option α := (table.slots[id]?).join

def setSlot (table : FlattenObjects α cap) (id : Nat) (content : Option α) :
    FlattenObjects α cap :=
  if inside : id < cap then ⟨table.slots.set id content inside⟩ else table

/-- `add_at`, or `none` where it gives the object back: the number is taken
or not below `cap`. -/
def addAt (table : FlattenObjects α cap) (id : Nat) (value : α) : Option (FlattenObjects α cap) :=
  if id < cap ∧ table.get id = none then
    some (table.setSlot id (some value))
  else none

/-- `ids`. -/
def ids (table : FlattenObjects α cap) : List Nat :=
  (List.range cap).filter fun id => (table.get id).isSome

@[simp]
theorem get_new (id : Nat) : (new : FlattenObjects α cap).get id = none := by
  by_cases inside : id < cap
  · simp [get, new, inside]
  · simp [get, new, inside]

variable {table : FlattenObjects α cap} {id : Nat}

theorem get_eq_none_of_le (outside : cap ≤ id) : table.get id = none := by
  have beyond : table.slots[id]? = none := by
    simpa using outside
  rw [get, beyond, Option.join_none]

theorem lt_of_get_eq_some {value : α} (found : table.get id = some value) :
    id < cap := by
  by_contra outside
  rw [get_eq_none_of_le (Nat.le_of_not_lt outside)] at found
  cases found

theorem get_setSlot (table : FlattenObjects α cap) (inside : id < cap)
    (content : Option α) (asked : Nat) :
    (table.setSlot id content).get asked =
      if id = asked then content else table.get asked := by
  rw [setSlot, dif_pos inside, get, Vector.getElem?_set]
  by_cases same : id = asked
  · rw [if_pos same, if_pos same, Option.join_some]
  · rw [if_neg same, if_neg same, get]

theorem get_setSlot_none (table : FlattenObjects α cap) (id asked : Nat) :
    (table.setSlot id none).get asked =
      if id = asked then none else table.get asked := by
  by_cases inside : id < cap
  · exact table.get_setSlot inside none asked
  · have outside := Nat.le_of_not_lt inside
    rw [setSlot, dif_neg inside]
    split
    · next same => rw [← same, get_eq_none_of_le outside]
    · rfl

theorem ext_get {left right : FlattenObjects α cap} (same : ∀ id, left.get id = right.get id) :
    left = right := by
  apply FlattenObjects.ext
  apply Vector.ext
  intro id inside
  simpa [get, inside] using same id

@[simp]
theorem mem_ids : id ∈ table.ids ↔ ∃ value, table.get id = some value := by
  simp only [ids, List.mem_filter, List.mem_range, Option.isSome_iff_exists]
  constructor
  · exact fun occupied => occupied.2
  · rintro ⟨value, found⟩
    exact ⟨lt_of_get_eq_some found, value, found⟩

theorem nodup_ids (table : FlattenObjects α cap) : table.ids.Nodup := List.nodup_range.filter _

section Counting

variable [DecidableEq α]

def count (table : FlattenObjects α cap) (value : α) : Nat := table.slots.count (some value)

@[simp]
theorem count_new (value : α) : (new : FlattenObjects α cap).count value = 0 := by
  simp [count, new, Vector.count_replicate]

theorem count_pos_iff {value : α} : 0 < table.count value ↔ ∃ id, table.get id = some value := by
  rw [count, Vector.count_pos_iff, Vector.mem_iff_getElem?]
  constructor
  · rintro ⟨id, found⟩
    exact ⟨id, by rw [get, found, Option.join_some]⟩
  · rintro ⟨id, found⟩
    exact ⟨id, Option.join_eq_some_iff.mp found⟩

theorem count_setSlot (table : FlattenObjects α cap) (inside : id < cap)
    (content : Option α) (value : α) :
    (table.setSlot id content).count value + (if table.get id = some value then 1 else 0) =
      table.count value + if content = some value then 1 else 0 := by
  have here : table.get id = table.slots[id] := by
    simp [get, inside]
  have positive : table.slots[id] = some value → 0 < table.slots.count (some value) := by
    intro found
    rw [Vector.count_pos_iff, ← found]
    exact Vector.getElem_mem inside
  rw [setSlot, dif_pos inside, count, count, Vector.count_set inside, here]
  simp only [beq_iff_eq]
  by_cases found : table.slots[id] = some value
  · have := positive found
    simp only [if_pos found]
    omega
  · simp only [if_neg found]
    omega

theorem count_setSlot_of_free (inside : id < cap) (free : table.get id = none) (added value : α) :
    (table.setSlot id (some added)).count value =
      table.count value + if added = value then 1 else 0 := by
  have changed := table.count_setSlot inside (some added) value
  rw [free] at changed
  simpa only [Option.some.injEq, reduceCtorEq, if_false, Nat.add_zero] using changed

end Counting

end FlattenObjects

/-- How `add` chooses a number: a free one, and none only if there is none. -/
structure IdAllocator (α : Type) (cap : Nat) where
  pick : FlattenObjects α cap → Option Nat
  pickFree : ∀ table id, pick table = some id → id < cap ∧ table.get id = none
  pickFull : ∀ table, pick table = none → ∀ id, id < cap → table.get id ≠ none

def IdAllocator.smallest (α : Type) (cap : Nat) : IdAllocator α cap where
  pick table := (List.range cap).find? fun id => (table.get id).isNone
  pickFree table id picked := by
    have free := List.find?_some picked
    have inside := List.mem_of_find?_eq_some picked
    exact ⟨List.mem_range.mp inside, by simpa using free⟩
  pickFull table full id inside := by
    have taken := List.find?_eq_none.mp full id (List.mem_range.mpr inside)
    simpa using taken

theorem IdAllocator.smallest_pick_eq_some
    {α : Type} {cap : Nat} {table : FlattenObjects α cap} {id : Nat} :
    (smallest α cap).pick table = some id ↔
      id < cap ∧ table.get id = none ∧ ∀ lower < id, table.get lower ≠ none := by
  simp only [smallest, List.find?_range_eq_some, List.mem_range,
    Option.isNone_iff_eq_none, Bool.not_eq_true', Option.isNone_eq_false_iff,
    Option.isSome_iff_ne_none]
  constructor
  · exact fun ⟨free, inside, earlier⟩ => ⟨inside, free, earlier⟩
  · exact fun ⟨inside, free, earlier⟩ => ⟨free, inside, earlier⟩

end Vegar.File

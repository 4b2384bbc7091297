import Mathlib.Data.List.Basic
import Mathlib.Data.Option.Basic
import Mathlib.Logic.Function.Basic
import Vegar.Lib.Roster

/-!
# Objects and tables of weak references

Objects are created under a key, may die, and belong to an object of another
kind.  A table maps keys to weak references, so that a dead object is not
answered.  A kind is nested in another when the owners of its live entries
are, as long as they live, in the table of the owners.
-/

namespace Vegar.Lib

structure Object where
  key : Nat
  owner : Nat
  alive : Bool
  deriving DecidableEq, Repr

structure Registry where
  objects : List Object
  table : Nat → Option Nat
  unique :
    ∀ (left right : Nat) (leftObject rightObject : Object), objects[left]? = some leftObject →
      objects[right]? = some rightObject →
      leftObject.alive = true → rightObject.alive = true →
      leftObject.key = rightObject.key → left = right
  keyed :
    ∀ (key number : Nat), table key = some number →
      ∃ object : Object, objects[number]? = some object ∧ object.key = key

namespace Registry

def new : Registry where
  objects := []
  table _ := none
  unique := nofun
  keyed := nofun

def isAlive (registry : Registry) (number : Nat) : Bool :=
  (registry.objects[number]?).any Object.alive

def get (registry : Registry) (key : Nat) : Option Nat :=
  (registry.table key).filter registry.isAlive

def containsKey (registry : Registry) (key : Nat) : Bool := (registry.get key).isSome

def hasLive (registry : Registry) (key : Nat) : Bool :=
  registry.objects.any fun object => object.alive && object.key == key

def keyOf (registry : Registry) (number : Nat) : Nat :=
  (registry.objects[number]?).elim 0 Object.key

def ownerOf (registry : Registry) (number : Nat) : Nat :=
  (registry.objects[number]?).elim 0 Object.owner

def Registered (registry : Registry) (number : Nat) : Prop :=
  ∃ object, registry.objects[number]? = some object ∧ registry.table object.key = some number

section Basic

variable {registry : Registry}

theorem isAlive_iff {number : Nat} :
    registry.isAlive number = true ↔
      ∃ object, registry.objects[number]? = some object ∧ object.alive = true := by
  unfold isAlive
  cases registry.objects[number]? <;> simp

theorem get_of_registered {number : Nat} (alive : registry.isAlive number = true)
    (registered : registry.Registered number) :
    registry.get (registry.keyOf number) = some number := by
  obtain ⟨object, found, inTable⟩ := registered
  rw [keyOf, found, Option.elim_some, get, inTable, Option.filter_some_pos alive]

theorem registered_of_containsKey {number : Nat} (alive : registry.isAlive number = true)
    (present : registry.containsKey (registry.keyOf number) = true) :
    registry.Registered number := by
  obtain ⟨object, found, objectAlive⟩ := isAlive_iff.mp alive
  rw [keyOf, found, Option.elim_some] at present
  obtain ⟨holder, got⟩ := Option.isSome_iff_exists.mp present
  obtain ⟨inTable, holderAlive⟩ := Option.filter_eq_some_iff.mp got
  obtain ⟨held, heldFound, sameKey⟩ := registry.keyed _ _ inTable
  obtain ⟨live, liveFound, isLive⟩ := isAlive_iff.mp holderAlive
  obtain rfl := Option.some.inj (heldFound.symm.trans liveFound)
  obtain rfl := registry.unique _ _ _ _ heldFound found isLive objectAlive sameKey
  exact ⟨object, found, inTable⟩

theorem lt_length_of_registered {number : Nat} (registered : registry.Registered number) :
    number < registry.objects.length := by
  obtain ⟨object, found, -⟩ := registered
  exact (List.getElem?_eq_some_iff.mp found).1

end Basic

/-! ## Creation, death and insertion -/

theorem not_alive_of_hasLive {registry : Registry} {key number : Nat} {object : Object}
    (free : registry.hasLive key = false)
    (found : registry.objects[number]? = some object)
    (sameKey : object.key = key) : object.alive = false := by
  have absent := List.any_eq_false.mp free object (List.mem_of_getElem? found)
  simpa [sameKey] using absent

def create (registry : Registry) (key owner : Nat)
    (free : registry.hasLive key = false) : Registry where
  objects := registry.objects ++ [⟨key, owner, true⟩]
  table := registry.table
  unique := by
    intro left right leftObject rightObject leftFound rightFound leftAlive rightAlive sameKey
    rcases Roster.old_or_added leftFound with leftOld | ⟨leftNew, rfl⟩
    · rcases Roster.old_or_added rightFound with rightOld | ⟨-, rfl⟩
      · exact registry.unique _ _ _ _ leftOld rightOld leftAlive rightAlive sameKey
      · rw [not_alive_of_hasLive free leftOld sameKey] at leftAlive
        cases leftAlive
    · rcases Roster.old_or_added rightFound with rightOld | ⟨rightNew, -⟩
      · rw [not_alive_of_hasLive free rightOld sameKey.symm] at rightAlive
        cases rightAlive
      · rw [leftNew, rightNew]
  keyed := by
    intro held number inTable
    obtain ⟨object, found, sameKey⟩ := registry.keyed held number inTable
    exact ⟨object, Roster.getElem?_append_of_some found _, sameKey⟩

theorem getElem?_kill {objects : List Object} {number asked : Nat} {object : Object} :
    (objects.modify number fun dying => { dying with alive := false })[asked]? = some object ↔
      ∃ before, objects[asked]? = some before ∧
        object = { before with alive := before.alive && asked != number } := by
  rw [List.getElem?_modify]
  cases objects[asked]? with
  | none => simp
  | some before =>
      by_cases same : number = asked
      · simp [same, eq_comm]
      · have other : (asked != number) = true := by
          simpa using Ne.symm same
        simp [same, other, eq_comm]

def kill (registry : Registry) (number : Nat) : Registry where
  objects := registry.objects.modify number fun dying => { dying with alive := false }
  table := registry.table
  unique := by
    intro left right leftObject rightObject leftFound rightFound leftAlive rightAlive sameKey
    obtain ⟨leftBefore, leftOld, rfl⟩ := getElem?_kill.mp leftFound
    obtain ⟨rightBefore, rightOld, rfl⟩ := getElem?_kill.mp rightFound
    exact registry.unique _ _ _ _ leftOld rightOld (Bool.and_eq_true_iff.mp leftAlive).1
        (Bool.and_eq_true_iff.mp rightAlive).1 sameKey
  keyed := by
    intro key asked inTable
    obtain ⟨object, found, sameKey⟩ := registry.keyed key asked inTable
    exact ⟨_, getElem?_kill.mpr ⟨object, found, rfl⟩, sameKey⟩

def insert (registry : Registry) (number : Nat) : Registry :=
  match found : registry.objects[number]? with
  | none => registry
  | some object =>
      { registry with
        table := Function.update registry.table object.key (some number)
        keyed := by
          intro key asked inTable
          by_cases same : key = object.key
          · subst same
            rw [Function.update_self] at inTable
            obtain rfl := Option.some.inj inTable
            exact ⟨object, found, rfl⟩
          · rw [Function.update_of_ne same] at inTable
            exact registry.keyed key asked inTable }

section Steps

variable {registry : Registry} {number asked : Nat}

theorem isAlive_create {key owner : Nat} (free : registry.hasLive key = false) :
    (registry.create key owner free).isAlive asked = true ↔
      registry.isAlive asked = true ∨ asked = registry.objects.length := by
  rw [isAlive_iff, isAlive_iff]
  constructor
  · rintro ⟨object, found, alive⟩
    rcases Roster.old_or_added found with old | ⟨here, -⟩
    · exact Or.inl ⟨object, old, alive⟩
    · exact Or.inr here
  · rintro (⟨object, found, alive⟩ | rfl)
    · refine ⟨object, ?_, alive⟩
      exact List.getElem?_append_left (List.getElem?_eq_some_iff.mp found).1
        |>.trans found
    · exact ⟨⟨key, owner, true⟩, List.getElem?_concat_length, rfl⟩

theorem registered_create {key owner : Nat} (free : registry.hasLive key = false) :
    (registry.create key owner free).Registered asked ↔
      registry.Registered asked := by
  constructor
  · rintro ⟨object, found, inTable⟩
    obtain ⟨held, heldFound, -⟩ := registry.keyed _ _ inTable
    have old : registry.objects[asked]? = some object := by
      rw [← found]
      exact (List.getElem?_append_left (List.getElem?_eq_some_iff.mp heldFound).1).symm
    exact ⟨object, old, inTable⟩
  · rintro ⟨object, found, inTable⟩
    refine ⟨object, ?_, inTable⟩
    exact List.getElem?_append_left (List.getElem?_eq_some_iff.mp found).1
      |>.trans found

theorem isAlive_kill :
    (registry.kill number).isAlive asked = true ↔
      registry.isAlive asked = true ∧ asked ≠ number := by
  rw [isAlive_iff, isAlive_iff]
  constructor
  · rintro ⟨object, found, alive⟩
    obtain ⟨before, old, rfl⟩ := getElem?_kill.mp found
    obtain ⟨wasAlive, other⟩ := Bool.and_eq_true_iff.mp alive
    exact ⟨⟨before, old, wasAlive⟩, by simpa using other⟩
  · rintro ⟨⟨object, found, alive⟩, other⟩
    refine ⟨_, getElem?_kill.mpr ⟨object, found, rfl⟩, ?_⟩
    simpa [alive] using other

theorem registered_kill : (registry.kill number).Registered asked ↔ registry.Registered asked := by
  constructor
  · rintro ⟨object, found, inTable⟩
    obtain ⟨before, old, rfl⟩ := getElem?_kill.mp found
    exact ⟨before, old, inTable⟩
  · rintro ⟨object, found, inTable⟩
    exact ⟨_, getElem?_kill.mpr ⟨object, found, rfl⟩, inTable⟩

@[simp]
theorem objects_insert : (registry.insert number).objects = registry.objects := by
  unfold insert
  split <;> rfl

theorem table_insert {object : Object} (found : registry.objects[number]? = some object) :
    (registry.insert number).table = Function.update registry.table object.key (some number) := by
  unfold insert
  split
  · next missing => rw [missing] at found; cases found
  · next held alsoFound =>
      obtain rfl := Option.some.inj (found.symm.trans alsoFound)
      rfl

theorem registered_insert_self (alive : registry.isAlive number = true) :
    (registry.insert number).Registered number := by
  obtain ⟨object, found, -⟩ := isAlive_iff.mp alive
  refine ⟨object, by rw [objects_insert, found], ?_⟩
  rw [table_insert found, Function.update_self]

theorem registered_of_insert (alive : registry.isAlive number = true)
    (registered : (registry.insert number).Registered asked) :
    asked = number ∨ registry.Registered asked := by
  obtain ⟨inserted, insertedFound, -⟩ := isAlive_iff.mp alive
  obtain ⟨object, found, inTable⟩ := registered
  rw [objects_insert] at found
  rw [table_insert insertedFound] at inTable
  by_cases sameKey : object.key = inserted.key
  · rw [sameKey, Function.update_self] at inTable
    exact Or.inl (Option.some.inj inTable).symm
  · rw [Function.update_of_ne sameKey] at inTable
    exact Or.inr ⟨object, found, inTable⟩

end Steps

/-! ## What every operation keeps -/

def Preserves (before after : Registry) : Prop :=
  ∀ (number : Nat) (object : Object), before.objects[number]? = some object →
    ∃ later, after.objects[number]? = some later ∧
      later.key = object.key ∧ later.owner = object.owner

section Preserves

variable {registry : Registry} {number : Nat}

theorem preserves_refl : Preserves registry registry :=
  fun _ object found => ⟨object, found, rfl, rfl⟩

theorem preserves_create {key owner : Nat} (free : registry.hasLive key = false) :
    Preserves registry (registry.create key owner free) := by
  intro asked object found
  refine ⟨object, ?_, rfl, rfl⟩
  exact List.getElem?_append_left (List.getElem?_eq_some_iff.mp found).1
    |>.trans found

theorem preserves_kill : Preserves registry (registry.kill number) := fun _ object found =>
    ⟨_, getElem?_kill.mpr ⟨object, found, rfl⟩, rfl, rfl⟩

theorem Preserves.ownerOf {before after : Registry} (preserves : Preserves before after)
    (alive : before.isAlive number = true) :
    after.ownerOf number = before.ownerOf number := by
  obtain ⟨object, found, -⟩ := isAlive_iff.mp alive
  obtain ⟨later, laterFound, -, sameOwner⟩ := preserves number object found
  rw [Registry.ownerOf, Registry.ownerOf, found, laterFound]
  exact sameOwner

end Preserves

/-! ## Keys and owners -/

def HasKey (registry : Registry) (number key : Nat) : Prop :=
  ∃ object, registry.objects[number]? = some object ∧ object.key = key

def HasOwner (registry : Registry) (number owner : Nat) : Prop :=
  ∃ object, registry.objects[number]? = some object ∧ object.owner = owner

section Keys

variable {registry before after : Registry} {number other key owner : Nat}

theorem Preserves.hasKey (preserves : Preserves before after) (has : before.HasKey number key) :
    after.HasKey number key := by
  obtain ⟨object, found, isKey⟩ := has
  obtain ⟨later, laterFound, sameKey, -⟩ := preserves number object found
  exact ⟨later, laterFound, sameKey.trans isKey⟩

theorem Preserves.hasOwner (preserves : Preserves before after)
    (has : before.HasOwner number owner) :
    after.HasOwner number owner := by
  obtain ⟨object, found, isOwner⟩ := has
  obtain ⟨later, laterFound, -, sameOwner⟩ := preserves number object found
  exact ⟨later, laterFound, sameOwner.trans isOwner⟩

theorem hasKey_keyOf (alive : registry.isAlive number = true) :
    registry.HasKey number (registry.keyOf number) := by
  obtain ⟨object, found, -⟩ := isAlive_iff.mp alive
  exact ⟨object, found, by rw [keyOf, found]; rfl⟩

theorem hasOwner_ownerOf (alive : registry.isAlive number = true) :
    registry.HasOwner number (registry.ownerOf number) := by
  obtain ⟨object, found, -⟩ := isAlive_iff.mp alive
  exact ⟨object, found, by rw [ownerOf, found]; rfl⟩

theorem alive_of_get (got : registry.get key = some number) :
    registry.isAlive number = true ∧ registry.HasKey number key := by
  obtain ⟨inTable, alive⟩ := Option.filter_eq_some_iff.mp got
  exact ⟨alive, registry.keyed key number inTable⟩

theorem eq_of_hasKey (alive : registry.isAlive number = true)
    (otherAlive : registry.isAlive other = true)
    (has : registry.HasKey number key)
    (otherHas : registry.HasKey other key) : number = other := by
  obtain ⟨object, found, isAlive⟩ := isAlive_iff.mp alive
  obtain ⟨otherObject, otherFound, otherIsAlive⟩ := isAlive_iff.mp otherAlive
  obtain ⟨same, sameFound, isKey⟩ := has
  obtain ⟨otherSame, otherSameFound, otherIsKey⟩ := otherHas
  obtain rfl := Option.some.inj (found.symm.trans sameFound)
  obtain rfl := Option.some.inj (otherFound.symm.trans otherSameFound)
  exact registry.unique _ _ _ _ found otherFound isAlive otherIsAlive (isKey.trans otherIsKey.symm)

end Keys

/-! ## What insertions keep -/

structure KeepsObjects (before after : Registry) : Prop where
  objects : after.objects = before.objects
  registered :
    ∀ number, before.isAlive number = true → before.Registered number → after.Registered number

theorem KeepsObjects.refl (registry : Registry) :
    KeepsObjects registry registry :=
  ⟨rfl, fun _ _ registered => registered⟩

theorem KeepsObjects.preserves {before after : Registry} (keeps : KeepsObjects before after) :
    Preserves before after := by
  intro number object found
  exact ⟨object, by rw [keeps.objects, found], rfl, rfl⟩

theorem KeepsObjects.isAlive {before after : Registry} (keeps : KeepsObjects before after)
    (number : Nat) : after.isAlive number = before.isAlive number := by
  rw [Registry.isAlive, Registry.isAlive, keeps.objects]

theorem KeepsObjects.ownerOf {before after : Registry} (keeps : KeepsObjects before after)
    (number : Nat) : after.ownerOf number = before.ownerOf number := by
  rw [Registry.ownerOf, Registry.ownerOf, keeps.objects]

theorem keepsObjects_insert {registry : Registry} {number : Nat}
    (alive : registry.isAlive number = true) :
    KeepsObjects registry (registry.insert number) := by
  refine ⟨objects_insert, ?_⟩
  intro other otherAlive registered
  obtain ⟨inserted, insertedFound, insertedAlive⟩ := isAlive_iff.mp alive
  obtain ⟨object, found, isLive⟩ := isAlive_iff.mp otherAlive
  obtain ⟨same, alsoFound, inTable⟩ := registered
  obtain rfl := Option.some.inj (found.symm.trans alsoFound)
  by_cases sameKey : object.key = inserted.key
  · obtain rfl := registry.unique _ _ _ _ found insertedFound isLive insertedAlive sameKey
    exact registered_insert_self alive
  · refine ⟨object, by rw [objects_insert, found], ?_⟩
    rw [table_insert insertedFound, Function.update_of_ne sameKey, inTable]

/-! ## Nested kinds of objects -/

structure Nested (child parent : Registry) : Prop where
  owned :
    ∀ (number : Nat) (object : Object), child.objects[number]? = some object →
      object.owner < parent.objects.length
  closed :
    ∀ number, child.isAlive number = true → child.Registered number →
      parent.isAlive (child.ownerOf number) = true →
      parent.Registered (child.ownerOf number)

namespace Nested

variable {child parent : Registry}

theorem create_child {key owner : Nat} (nested : Nested child parent)
    (free : child.hasLive key = false)
    (known : owner < parent.objects.length) :
    Nested (child.create key owner free) parent := by
  constructor
  · intro number object found
    rcases Roster.old_or_added found with old | ⟨-, rfl⟩
    · exact nested.owned number object old
    · exact known
  · intro number alive registered ownerAlive
    have before := (registered_create free).mp registered
    have short := lt_length_of_registered before
    have wasAlive : child.isAlive number = true := by
      rcases (isAlive_create free).mp alive with old | fresh
      · exact old
      · omega
    rw [(preserves_create free).ownerOf wasAlive] at ownerAlive ⊢
    exact nested.closed number wasAlive before ownerAlive

theorem create_parent {key owner : Nat} (nested : Nested child parent)
    (free : parent.hasLive key = false) :
    Nested child (parent.create key owner free) := by
  constructor
  · intro number object found
    have known := nested.owned number object found
    simp only [create, List.length_append, List.length_singleton]
    omega
  · intro number alive registered ownerAlive
    obtain ⟨object, found, -⟩ := isAlive_iff.mp alive
    have known : child.ownerOf number < parent.objects.length := by
      rw [ownerOf, found]
      exact nested.owned number object found
    rw [registered_create]
    rcases (isAlive_create free).mp ownerAlive with old | fresh
    · exact nested.closed number alive registered old
    · omega

theorem kill_child {dying : Nat}
    (nested : Nested child parent) : Nested (child.kill dying) parent := by
  constructor
  · intro number object found
    obtain ⟨before, old, rfl⟩ := getElem?_kill.mp found
    exact nested.owned number before old
  · intro number alive registered ownerAlive
    have wasAlive := (isAlive_kill.mp alive).1
    rw [preserves_kill.ownerOf wasAlive] at ownerAlive ⊢
    exact nested.closed number wasAlive (registered_kill.mp registered) ownerAlive

theorem kill_parent {dying : Nat}
    (nested : Nested child parent) : Nested child (parent.kill dying) := by
  constructor
  · intro number object found
    simpa [kill] using nested.owned number object found
  · intro number alive registered ownerAlive
    rw [registered_kill]
    exact nested.closed number alive registered (isAlive_kill.mp ownerAlive).1

theorem insert_child {after : Registry} {number : Nat} (nested : Nested child parent)
    (keeps : KeepsObjects parent after)
    (alive : child.isAlive number = true)
    (ownerRegistered : after.Registered (child.ownerOf number)) :
    Nested (child.insert number) after := by
  have childKeeps := keepsObjects_insert alive
  constructor
  · intro asked held heldFound
    rw [objects_insert] at heldFound
    rw [keeps.objects]
    exact nested.owned asked held heldFound
  · intro asked askedAlive registered ownerAlive
    rw [childKeeps.isAlive] at askedAlive
    rw [childKeeps.ownerOf, keeps.isAlive] at ownerAlive
    rw [childKeeps.ownerOf]
    rcases registered_of_insert alive registered with rfl | before
    · exact ownerRegistered
    · exact keeps.registered _ ownerAlive (nested.closed asked askedAlive before ownerAlive)

end Nested

end Registry

end Vegar.Lib

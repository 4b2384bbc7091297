import Vegar.Lib.Machine
import Mathlib.Data.List.Basic

/-!
# Blocks that share nothing

What a program expects of an allocator: blocks of cells, numbered in the
order in which they are taken, each with contents of its own.  Below it, a
flat memory in which every block has a place.  The lemmas say what changes of
the memory and of the places are, seen as blocks.
-/

namespace Vegar.Lib

universe u

abbrev Blocks (β : Type u) := List (Option (List β))

inductive BlockAction (β : Type u) where
  | take (contents : List β)
  | put (index offset : Nat) (value : β)
  | giveBack (index : Nat)

namespace Blocks

variable {β : Type u}

def next (blocks : Blocks β) : BlockAction β → Option (Blocks β)
  | .take contents => some (blocks ++ [some contents])
  | .put index offset value =>
      match blocks[index]? with
      | some (some contents) =>
          if offset < contents.length then
            some (blocks.set index (some (contents.set offset value)))
          else none
      | _ => none
  | .giveBack index =>
      match blocks[index]? with
      | some (some _) => some (blocks.set index none)
      | _ => none

def machine (β : Type u) : Machine (Blocks β) (BlockAction β) where
  start blocks := blocks = []
  next := next

theorem next_put {blocks : Blocks β} {index offset : Nat} {value : β} {contents : List β}
    (found : blocks[index]? = some (some contents))
    (inside : offset < contents.length) :
    blocks.next (.put index offset value) =
      some (blocks.set index (some (contents.set offset value))) := by
  rw [next, found]
  exact if_pos inside

theorem next_giveBack {blocks : Blocks β} {index : Nat} {contents : List β}
    (found : blocks[index]? = some (some contents)) :
    blocks.next (.giveBack index) = some (blocks.set index none) := by
  rw [next, found]

end Blocks

/-! ## Places in a flat memory -/

section Cells

variable {β : Type u} {memory : Nat → Option β}

def cells (memory : Nat → Option β) (addr : Nat) : Nat → Option (List β)
  | 0 => some []
  | count + 1 => do
      let cell ← memory addr
      let rest ← cells memory (addr + 1) count
      return cell :: rest

theorem cells_eq_some_iff {addr count : Nat} {contents : List β} :
    cells memory addr count = some contents ↔
      contents.length = count ∧ ∀ index < count, memory (addr + index) = contents[index]? := by
  induction count generalizing addr contents with
  | zero =>
      rw [cells, Option.some.injEq, List.length_eq_zero_iff, eq_comm]
      exact (and_iff_left fun index below => (Nat.not_lt_zero _ below).elim).symm
  | succ count ih =>
      simp only [cells, Option.bind_eq_bind, Option.bind_eq_some_iff,
        Option.pure_def, Option.some.injEq]
      constructor
      · intro built
        obtain ⟨cell, first, rest, isRest, rfl⟩ := built
        obtain ⟨length, later⟩ := ih.mp isRest
        refine ⟨congrArg (· + 1) length, ?_⟩
        intro index below
        cases index with
        | zero => exact first
        | succ index =>
            rw [← Nat.add_assoc, Nat.add_right_comm]
            exact later index (Nat.lt_of_succ_lt_succ below)
      · intro holds
        obtain ⟨length, every⟩ := holds
        obtain ⟨cell, rest, rfl⟩ := List.exists_cons_of_length_eq_add_one length
        refine ⟨cell, every 0 (Nat.succ_pos count), rest, ?_, rfl⟩
        refine ih.mpr ⟨Nat.succ.inj length, ?_⟩
        intro index below
        have there := every (index + 1) (Nat.succ_lt_succ below)
        rw [← Nat.add_assoc, Nat.add_right_comm] at there
        exact there

end Cells

structure Place where
  start : Nat
  length : Nat

namespace Place

variable {β : Type u} {memory after : Nat → Option β} {place : Place}

def Covers (place : Place) (addr : Nat) : Prop :=
  place.start ≤ addr ∧ addr < place.start + place.length

def read (memory : Nat → Option β) (place : Place) : Option (List β) :=
  cells memory place.start place.length

theorem read_congr (same : ∀ addr, place.Covers addr → after addr = memory addr) :
    place.read after = place.read memory := by
  apply Option.ext
  intro contents
  have sameCell :
      ∀ index < place.length, after (place.start + index) = memory (place.start + index) :=
    fun index below =>
      same _ ⟨Nat.le_add_right _ _, Nat.add_lt_add_left below _⟩
  rw [read, read, cells_eq_some_iff, cells_eq_some_iff]
  refine and_congr_right fun _ => forall₂_congr fun index below => ?_
  rw [sameCell index below]

theorem exists_read (there : ∀ addr, place.Covers addr → (memory addr).isSome = true) :
    ∃ contents, place.read memory = some contents := by
  have full :
      ∀ count addr, (∀ index < count, (memory (addr + index)).isSome = true) →
        ∃ contents, cells memory addr count = some contents := by
    intro count
    induction count with
    | zero => exact fun addr _ => ⟨[], rfl⟩
    | succ count ih =>
        intro addr every
        obtain ⟨cell, first⟩ := Option.isSome_iff_exists.mp (every 0 (Nat.succ_pos count))
        rw [Nat.add_zero] at first
        obtain ⟨rest, isRest⟩ := ih (addr + 1) fun index below => by
            rw [Nat.add_right_comm, Nat.add_assoc]
            exact every (index + 1) (Nat.succ_lt_succ below)
        exact ⟨cell :: rest, by rw [cells, first, isRest]; rfl⟩
  exact full place.length place.start fun index below =>
    there _ ⟨Nat.le_add_right _ _, Nat.add_lt_add_left below _⟩

theorem read_update {contents : List β} {offset : Nat} {value : β}
    (holds : place.read memory = some contents)
    (inside : offset < place.length) :
    place.read (Function.update memory (place.start + offset) (some value)) =
      some (contents.set offset value) := by
  obtain ⟨length, every⟩ := cells_eq_some_iff.mp holds
  refine cells_eq_some_iff.mpr ⟨List.length_set.trans length, ?_⟩
  intro index below
  rw [List.getElem?_set]
  by_cases same : offset = index
  · subst index
    rw [Function.update_self, if_pos rfl, if_pos (length ▸ inside)]
  · rw [Function.update_of_ne (by omega), if_neg same, every index below]

end Place

def blocksAt {β : Type u} (memory : Nat → Option β) (places : List (Option Place)) : Blocks β :=
  places.map fun slot => slot.bind (Place.read memory)

section BlocksAt

variable {β : Type u} {memory after : Nat → Option β}
  {places : List (Option Place)} {index : Nat} {place : Place}
  {contents : List β}

theorem blocksAt_congr
    (same : ∀ place, some place ∈ places → ∀ addr, place.Covers addr → after addr = memory addr) :
    blocksAt after places = blocksAt memory places := by
  apply List.map_congr_left
  intro slot member
  cases slot with
  | none => rfl
  | some place => exact Place.read_congr (same place member)

theorem blocksAt_concat (holds : place.read memory = some contents) :
    blocksAt memory (places ++ [some place]) =
      blocksAt memory places ++ [some contents] := by
  rw [blocksAt, List.map_append]
  exact congrArg (_ ++ [·]) holds

theorem getElem?_blocksAt (found : places[index]? = some (some place))
    (holds : place.read memory = some contents) :
    (blocksAt memory places)[index]? = some (some contents) := by
  rw [blocksAt, List.getElem?_map, found]
  exact congrArg some holds

theorem blocksAt_set_none :
    blocksAt memory (places.set index none) = (blocksAt memory places).set index none :=
  List.map_set

theorem blocksAt_update {offset : Nat} {value : β} (found : places[index]? = some (some place))
    (holds : place.read memory = some contents)
    (inside : offset < place.length)
    (apart : ∀ asked other, places[asked]? = some (some other) →
      other.Covers (place.start + offset) → asked = index) :
    blocksAt (Function.update memory (place.start + offset) (some value)) places =
      (blocksAt memory places).set index (some (contents.set offset value)) := by
  apply List.ext_getElem?
  intro asked
  rw [List.getElem?_set, blocksAt, blocksAt, List.length_map, List.getElem?_map, List.getElem?_map]
  have indexExists := (List.getElem?_eq_some_iff.mp found).1
  by_cases same : index = asked
  · subst asked
    rw [if_pos rfl, if_pos indexExists, found]
    exact congrArg some (Place.read_update holds inside)
  · rw [if_neg same]
    cases askedFound : places[asked]? with
    | none => rfl
    | some slot =>
        cases slot with
        | none => rfl
        | some other =>
            refine congrArg some (Place.read_congr ?_)
            intro addr covers
            apply Function.update_of_ne
            intro isChanged
            rw [isChanged] at covers
            exact same (apart asked other askedFound covers).symm

end BlocksAt

end Vegar.Lib

import Mathlib.Data.List.Nodup
import Mathlib.Data.List.Range

/-!
# Cells under numbers

A memory gives the content of the cell under each number.  Loads and stores
of ranges, the effect of storing data at a list of cells, and values that are
stored in cells by an encoding.
-/

namespace Vegar.Lib.Memory

universe u v

variable {β : Type u}

def load (memory : Nat → β) (addr len : Nat) : List β := (List.range' addr len).map memory

def store (memory : Nat → β) (addr : Nat) (data : List β) : Nat → β := fun asked =>
    if addr ≤ asked then (data[asked - addr]?).getD (memory asked)
    else memory asked

@[simp]
theorem length_load (memory : Nat → β) (addr len : Nat) : (load memory addr len).length = len := by
  rw [load, List.length_map, List.length_range']

variable {memory : Nat → β} {addr : Nat} {data : List β}

theorem store_of_outside {asked : Nat} (outside : asked < addr ∨ addr + data.length ≤ asked) :
    store memory addr data asked = memory asked := by
  unfold store
  split
  · have beyond : data[asked - addr]? = none := List.getElem?_eq_none (by omega)
    rw [beyond, Option.getD_none]
  · rfl

theorem store_add {index : Nat} (inside : index < data.length) :
    store memory addr data (addr + index) = data[index] := by
  rw [store, if_pos (Nat.le_add_right _ _), Nat.add_sub_cancel_left,
    List.getElem?_eq_getElem inside, Option.getD_some]

theorem load_store_self (memory : Nat → β) (addr : Nat) (data : List β) :
    load (store memory addr data) addr data.length = data := by
  apply List.ext_getElem
  · rw [length_load]
  · intro index _ inside
    simp only [load, List.getElem_map, List.getElem_range', Nat.one_mul]
    exact store_add inside

theorem take_load (memory : Nat → β) (addr : Nat) {count len : Nat} (fits : count ≤ len) :
    (load memory addr len).take count = load memory addr count := by
  obtain ⟨left, rfl⟩ := Nat.exists_eq_add_of_le fits
  rw [load, ← List.range'_append_1, List.map_append]
  exact List.take_left' (length_load memory addr count)

theorem load_store_of_le (memory : Nat → β) (addr : Nat) {count : Nat}
    (fits : count ≤ data.length) :
    load (store memory addr data) addr count = data.take count := by
  rw [← take_load _ _ fits, load_store_self]

theorem load_congr {left right : Nat → β} {len : Nat}
    (same : ∀ asked, addr ≤ asked → asked < addr + len → left asked = right asked) :
    load left addr len = load right addr len := by
  apply List.map_congr_left
  intro asked inside
  obtain ⟨above, below⟩ := List.mem_range'_1.mp inside
  exact same asked above below

theorem load_store_of_disjoint {asked len : Nat}
    (apart : asked + len ≤ addr ∨ addr + data.length ≤ asked) :
    load (store memory addr data) asked len = load memory asked len := by
  apply load_congr
  intro cell above below
  apply store_of_outside
  omega

/-! ## Filling a list of cells -/

structure Filled (before after : Nat → β) (cells : List Nat) (data : List β) : Prop where
  fills : (cells.take data.length).map after = data
  keeps : ∀ cell, cell ∉ cells.take data.length → after cell = before cell

namespace Filled

variable {before middle after : Nat → β} {cells more : List Nat} {data rest : List β}

theorem nil (memory : Nat → β) (cells : List Nat) : Filled memory memory cells [] where
  fills := rfl
  keeps _ _ := rfl

theorem of_store (memory : Nat → β) {addr len : Nat} (fits : data.length ≤ len) :
    Filled memory (store memory addr data) (List.range' addr len) data := by
  have front :
      (List.range' addr len).take data.length =
        List.range' addr data.length := by
    obtain ⟨left, rfl⟩ := Nat.exists_eq_add_of_le fits
    rw [← List.range'_append_1]
    exact List.take_left' List.length_range'
  constructor
  · rw [front]
    exact load_store_self memory addr data
  · intro cell outside
    rw [front, List.mem_range'_1] at outside
    apply store_of_outside
    omega

theorem append (filled : Filled before after cells data)
    (fits : data.length ≤ cells.length) (more : List Nat) :
    Filled before after (cells ++ more) data := by
  have front : (cells ++ more).take data.length = cells.take data.length :=
    List.take_append_of_le_length fits
  constructor
  · rw [front]
    exact filled.fills
  · rw [front]
    exact filled.keeps

theorem trans (first : Filled before middle cells data) (isFull : data.length = cells.length)
    (second : Filled middle after more rest)
    (apart : ∀ cell ∈ cells, cell ∉ more) :
    Filled before after (cells ++ more) (data ++ rest) := by
  have front :
      (cells ++ more).take (data ++ rest).length =
        cells ++ more.take rest.length := by
    rw [List.length_append, isFull, List.take_length_add_append]
  have allCells : cells.take data.length = cells := by
    rw [isFull, List.take_length]
  constructor
  · have kept : cells.map after = cells.map middle := by
      apply List.map_congr_left
      intro cell isIn
      apply second.keeps
      exact fun later => apart cell isIn (List.mem_of_mem_take later)
    have filledFirst := first.fills
    rw [allCells] at filledFirst
    rw [front, List.map_append, kept, filledFirst, second.fills]
  · intro cell outside
    rw [front, List.mem_append, not_or] at outside
    rw [second.keeps cell outside.2]
    apply first.keeps
    rw [allCells]
    exact outside.1

end Filled

/-! ## Values in cells -/

structure Codec (β : Type u) (α : Type v) where
  size : Nat
  encode : α → List β
  decode : List β → α
  length_encode : ∀ value, (encode value).length = size
  decode_encode : ∀ value, decode (encode value) = value

namespace Codec

variable {α : Type v} (codec : Codec β α)

def read (memory : Nat → β) (addr : Nat) : α := codec.decode (load memory addr codec.size)

def write (memory : Nat → β) (addr : Nat) (value : α) : Nat → β :=
  store memory addr (codec.encode value)

theorem read_write_self (memory : Nat → β) (addr : Nat) (value : α) :
    codec.read (codec.write memory addr value) addr = value := by
  have loaded := load_store_self memory addr (codec.encode value)
  rw [codec.length_encode] at loaded
  rw [read, write, loaded, codec.decode_encode]

variable {γ : Type v}

theorem read_write_of_disjoint (other : Codec β γ) {asked : Nat} {value : γ}
    (apart : asked + codec.size ≤ addr ∨ addr + other.size ≤ asked) :
    codec.read (other.write memory addr value) asked =
      codec.read memory asked := by
  rw [read, write, read, load_store_of_disjoint]
  rw [other.length_encode]
  exact apart

def pair {γ : Type v} (second : Codec β γ) : Codec β (α × γ) where
  size := codec.size + second.size
  encode value := codec.encode value.1 ++ second.encode value.2
  decode cells := (codec.decode (cells.take codec.size), second.decode (cells.drop codec.size))
  length_encode value := by
    rw [List.length_append, codec.length_encode, second.length_encode]
  decode_encode value := by
    rw [List.take_left' (codec.length_encode value.1),
      List.drop_left' (codec.length_encode value.1), codec.decode_encode,
      second.decode_encode]

theorem read_pair (second : Codec β γ) (memory : Nat → β) (addr : Nat) :
    (codec.pair second).read memory addr =
      (codec.read memory addr, second.read memory (addr + codec.size)) := by
  have cut :
      load memory addr (codec.size + second.size) =
        load memory addr codec.size ++ load memory (addr + codec.size) second.size := by
    rw [load, ← List.range'_append_1, List.map_append]
    rfl
  have length := length_load memory addr codec.size
  change
    (codec.decode ((load memory addr (codec.size + second.size)).take codec.size),
      second.decode ((load memory addr (codec.size + second.size)).drop codec.size)) = _
  rw [cut, List.take_left' length, List.drop_left' length]
  rfl

def padded (cell : β) (count : Nat) : Codec β α where
  size := count + codec.size
  encode value := List.replicate count cell ++ codec.encode value
  decode cells := codec.decode (cells.drop count)
  length_encode value := by
    rw [List.length_append, List.length_replicate, codec.length_encode]
  decode_encode value := by
    rw [List.drop_left' List.length_replicate, codec.decode_encode]

def via {γ : Type v} (there : γ → α) (back : α → γ)
    (inverse : ∀ value, back (there value) = value) : Codec β γ where
  size := codec.size
  encode value := codec.encode (there value)
  decode cells := back (codec.decode cells)
  length_encode value := codec.length_encode (there value)
  decode_encode value := by
    rw [codec.decode_encode, inverse]

def reversed : Codec β α where
  size := codec.size
  encode value := (codec.encode value).reverse
  decode cells := codec.decode cells.reverse
  length_encode value := by
    rw [List.length_reverse, codec.length_encode]
  decode_encode value := by
    rw [List.reverse_reverse, codec.decode_encode]

def vector [Inhabited β] (count : Nat) : Codec β (Vector β count) where
  size := count
  encode cells := cells.toList
  decode cells := Vector.ofFn fun index => (cells[index.val]?).getD default
  length_encode cells := Vector.length_toList
  decode_encode cells := by
    apply Vector.ext
    intro index inside
    have inList : index < cells.toList.length := by
      rw [Vector.length_toList]
      exact inside
    rw [Vector.getElem_ofFn, List.getElem?_eq_getElem inList,
      Option.getD_some, Vector.getElem_toList]

/-! ## Encodings without other contents -/

def Onto : Prop := ∀ cells, cells.length = codec.size → codec.encode (codec.decode cells) = cells

variable {codec}

theorem Onto.reversed (onto : codec.Onto) : codec.reversed.Onto := by
  intro cells length
  have back := onto cells.reverse (by rw [List.length_reverse]; exact length)
  change (codec.encode (codec.decode cells.reverse)).reverse = cells
  rw [back, List.reverse_reverse]

theorem Onto.pair {second : Codec β γ} (onto : codec.Onto)
    (secondOnto : second.Onto) : (codec.pair second).Onto := by
  intro cells length
  change cells.length = codec.size + second.size at length
  have front := onto (cells.take codec.size) (by rw [List.length_take]; omega)
  have back := secondOnto (cells.drop codec.size) (by rw [List.length_drop]; omega)
  change
    codec.encode (codec.decode (cells.take codec.size)) ++
      second.encode (second.decode (cells.drop codec.size)) = cells
  rw [front, back, List.take_append_drop]

theorem Onto.via {there : γ → α} {back : α → γ}
    {inverse : ∀ value, back (there value) = value} (onto : codec.Onto)
    (surjective : ∀ value, there (back value) = value) :
    (codec.via there back inverse).Onto := by
  intro cells length
  change codec.encode (there (back (codec.decode cells))) = cells
  rw [surjective]
  exact onto cells length

theorem vector_onto [Inhabited β] (count : Nat) : (@vector β _ count).Onto := by
  intro cells length
  change cells.length = count at length
  subst length
  apply List.ext_getElem
  · exact Vector.length_toList
  · intro index _ inside
    simp [vector]

theorem Onto.encode_read (onto : codec.Onto) (memory : Nat → β) (addr : Nat) :
    codec.encode (codec.read memory addr) = load memory addr codec.size :=
  onto _ (length_load memory addr codec.size)

variable (codec)

theorem read_store_load {memory other : Nat → β} {addr target len : Nat} (fits : codec.size ≤ len) :
    codec.read (store other target (load memory addr len)) target =
      codec.read memory addr := by
  unfold read
  congr 1
  apply List.ext_getElem
  · rw [length_load, length_load]
  · intro index inside _
    rw [length_load] at inside
    have inData : index < (load memory addr len).length := by
      rw [length_load]
      omega
    simp only [load, List.getElem_map, List.getElem_range', Nat.one_mul]
    change store other target (load memory addr len) (target + index) = _
    rw [store_add inData]
    simp only [load, List.getElem_map, List.getElem_range', Nat.one_mul]

end Codec

end Vegar.Lib.Memory

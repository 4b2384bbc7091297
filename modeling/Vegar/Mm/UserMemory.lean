import Vegar.Lib.Memory
import Vegar.Mm.ElfImage

/-!
# User memory behind checked pointers

A system call reads and writes user memory through references that
`check_region` has granted.  Such a call sees a byte under every address and
the verdict of the check for every range; neither the check nor the stores
change the verdicts.
-/

namespace Vegar.Mm

open Vegar.Lib

/-! ## Numbers in memory -/

def toLeBytes : (count value : Nat) → List UInt8
  | 0, _ => []
  | count + 1, value => .ofNat value :: toLeBytes count (value / 256)

theorem length_toLeBytes (count value : Nat) : (toLeBytes count value).length = count := by
  induction count generalizing value with
  | zero => rfl
  | succ count ih =>
      rw [toLeBytes, List.length_cons, ih]

theorem fromLeBytes_toLeBytes (count value : Nat) :
    fromLeBytes (toLeBytes count value) = value % 256 ^ count := by
  induction count generalizing value with
  | zero => rw [toLeBytes, fromLeBytes, Nat.pow_zero, Nat.mod_one]
  | succ count ih =>
      have power : 256 ^ (count + 1) = 256 * 256 ^ count := Nat.pow_add_one'
      rw [toLeBytes, fromLeBytes, ih, UInt8.toNat_ofNat', power, Nat.mod_mul]

def leCodec (count : Nat) : Memory.Codec UInt8 (BitVec (8 * count)) where
  size := count
  encode value := toLeBytes count value.toNat
  decode bytes := .ofNat _ (fromLeBytes bytes)
  length_encode value := length_toLeBytes count value.toNat
  decode_encode value := by
    have bounded : value.toNat < 256 ^ count := by
      have isPower : 256 ^ count = 2 ^ (8 * count) := by
        rw [Nat.pow_mul]
      rw [isPower]
      exact value.isLt
    rw [fromLeBytes_toLeBytes, Nat.mod_eq_of_lt bounded, BitVec.ofNat_toNat, BitVec.setWidth_eq]

/-! ## The memory of a caller -/

structure UserMemory where
  bytes : Nat → UInt8
  /-- `check_region`. -/
  check : (start : Nat) → Layout → MappingFlags → Except (Fault LinuxError) Unit

namespace UserMemory

def ofAspace (crates : MmCrates) (aspace : AddrSpace) : UserMemory where
  bytes addr := (aspace.byteAt addr).getD 0
  check start layout accessFlags := (checkRegion crates aspace start layout accessFlags).1

/-- The access that `get_as_mut` and `get_as_ref` make. -/
def getElement (memory : UserMemory) (accessFlags : MappingFlags) (elem : ElemType)
    (addr : Nat) : Except (Fault LinuxError) UserSlice :=
  (memory.check addr (Layout.new elem) accessFlags).map fun _ => ⟨addr, 1⟩

/-- The access that `get_as_mut_slice` and `get_as_slice` make. -/
def getElements (memory : UserMemory) (accessFlags : MappingFlags) (elem : ElemType)
    (addr len : Nat) : Except (Fault LinuxError) UserSlice :=
  match Layout.array elem len with
  | none => .error .panicked
  | some layout =>
      (memory.check addr layout accessFlags).map fun _ => ⟨addr, len⟩

/-- `nullable!`. -/
def nullable (addr : Nat) (access : Except (Fault LinuxError) UserSlice) :
    Except (Fault LinuxError) (Option UserSlice) :=
  if addr = 0 then .ok none else access.map some

theorem nullable_eq_ok_none {addr : Nat} {access : Except (Fault LinuxError) UserSlice} :
    nullable addr access = .ok none ↔ addr = 0 := by
  unfold nullable
  split
  · next null => exact iff_of_true rfl null
  · next given => cases access <;> exact iff_of_false nofun given

theorem nullable_getElement_cases
    {memory : UserMemory} {accessFlags : MappingFlags} {elem : ElemType}
    {addr : Nat} {access : LinuxResult Unit}
    (checked : memory.check addr (Layout.new elem) accessFlags = access.mapError .err) :
    (∃ error, addr ≠ 0 ∧ access = .error error ∧
      nullable addr (memory.getElement accessFlags elem addr) = .error (.err error)) ∨
    ((addr = 0 ∨ access = .ok ()) ∧
      nullable addr (memory.getElement accessFlags elem addr) =
        .ok (if addr = 0 then none else some ⟨addr, 1⟩)) := by
  rw [nullable, getElement, checked]
  by_cases null : addr = 0
  · rw [if_pos null, if_pos null]
    exact Or.inr ⟨Or.inl null, rfl⟩
  · rw [if_neg null, if_neg null]
    cases access with
    | error error => exact Or.inl ⟨error, null, rfl, rfl⟩
    | ok granted => exact Or.inr ⟨Or.inr rfl, rfl⟩

def store (memory : UserMemory) (addr : Nat) (data : List UInt8) :
    UserMemory :=
  { memory with bytes := Memory.store memory.bytes addr data }

def word (memory : UserMemory) (addr : Nat) : Nat := fromLeBytes (Memory.load memory.bytes addr 8)

@[simp]
theorem store_bytes (memory : UserMemory) (addr : Nat) (data : List UInt8) :
    (memory.store addr data).bytes = Memory.store memory.bytes addr data :=
  rfl

@[simp]
theorem store_check (memory : UserMemory) (addr : Nat) (data : List UInt8) :
    (memory.store addr data).check = memory.check :=
  rfl

theorem le_isizeMax_of_getElements
    {memory : UserMemory} {accessFlags : MappingFlags} {elem : ElemType}
    {addr len : Nat} {slice : UserSlice}
    (granted : memory.getElements accessFlags elem addr len = .ok slice) :
    len * elem.size ≤ isizeMax := by
  by_contra tooLong
  rw [getElements, Layout.array, if_neg tooLong] at granted
  cases granted

/-! ## The address space behind the memory -/

theorem getElement_ofAspace (crates : MmCrates) (aspace : AddrSpace) (accessFlags : MappingFlags)
    (elem : ElemType) (addr : BitVec 64) :
    (ofAspace crates aspace).getElement accessFlags elem addr.toNat =
      (Mm.getElement crates accessFlags aspace elem addr).1 := by
  simp only [getElement, ofAspace, Mm.getElement]
  rcases checkRegion crates aspace addr.toNat (Layout.new elem) accessFlags
    with ⟨_ | _, after⟩ <;> rfl

theorem getElements_ofAspace (crates : MmCrates) (aspace : AddrSpace) (accessFlags : MappingFlags)
    (elem : ElemType) (addr len : BitVec 64) :
    (ofAspace crates aspace).getElements accessFlags elem addr.toNat len.toNat =
      (Mm.getElements crates accessFlags aspace elem addr len).1 := by
  simp only [getElements, ofAspace, Mm.getElements]
  cases Layout.array elem len.toNat with
  | none => rfl
  | some layout =>
      dsimp only
      rcases checkRegion crates aspace addr.toNat layout accessFlags with ⟨_ | _, after⟩ <;> rfl

theorem bytes_ofAspace_storeBytes (crates : MmCrates) {aspace after : AddrSpace} {start : Nat}
    {data : List UInt8}
    (allMapped : ∀ index < data.length, aspace.IsMapped ((start + index) / pageSize4k))
    (stored : Axmm.storeBytes aspace start data = (.ok (), after)) :
    (ofAspace crates after).bytes = ((ofAspace crates aspace).store start data).bytes := by
  funext addr
  simp only [ofAspace, store_bytes]
  rw [byteAt_storeBytes allMapped stored]
  by_cases inside : start ≤ addr ∧ addr < start + data.length
  · obtain ⟨index, rfl⟩ := Nat.exists_eq_add_of_le inside.1
    have below : index < data.length := by omega
    rw [if_pos inside, Memory.store_add below, Nat.add_sub_cancel_left,
      List.getElem?_eq_getElem below, Option.getD_some]
  · rw [if_neg inside, Memory.store_of_outside (by omega)]

end UserMemory

end Vegar.Mm

import Vegar.Mm.UserPtr
import Vegar.Text

/-!
# Null-terminated user arrays

`check_null_terminated` of `api/src/ptr.rs` and the accessors built on it.
The scan reads one element after the other and checks each page before the
first element in it is read; how far it runs depends on user memory, so it
is given a number of steps.
-/

namespace Vegar.Mm

open Vegar.Lib

def isZeroElement (aspace : AddrSpace) (elem : ElemType) (addr : Nat) : Option Bool :=
  (aspace.bytesAt addr elem.size).map fun bytes => bytes.all (· == 0)

/-- The two nested loops of `check_null_terminated`, one pass at a time:
`page` is the first page not checked yet, `len` the number of non-zero
elements seen. -/
def scanNullTerminated (axmm : Axmm) (aspace : AddrSpace) (elem : ElemType)
    (accessFlags : MappingFlags) (start : Nat) :
    (fuel page len : Nat) → Except (Fault LinuxError) Nat
  | 0, _, _ => .error .outOfFuel
  | fuel + 1, page, len =>
      match usizeAdd start (len * elem.size) with
      | none => .error .panicked
      | some ptr =>
          if page ≤ ptr then
            match usizeAdd page pageSize4k with
            | none => .error .panicked
            | some next =>
                if axmm.checkRegionAccess aspace page next accessFlags then
                  scanNullTerminated axmm aspace elem accessFlags start fuel next len
                else .error (.err .EFAULT)
          else
            match isZeroElement aspace elem ptr with
            | none => .error .exited
            | some true => .ok len
            | some false =>
                scanNullTerminated axmm aspace elem accessFlags start fuel page (len + 1)

/-- `check_null_terminated`. -/
def checkNullTerminated (axmm : Axmm) (aspace : AddrSpace) (elem : ElemType)
    (accessFlags : MappingFlags) (fuel start : Nat) :
    Except (Fault LinuxError) Nat :=
  if start &&& (elem.align - 1) ≠ 0 then .error (.err .EFAULT)
  else
    scanNullTerminated axmm aspace elem accessFlags start fuel (alignDown4k start) 0

def ElemType.pointer : ElemType where
  size := 8
  align := 8
  alignPower := ⟨3, rfl⟩
  alignDivides := ⟨1, rfl⟩
  sizeFits := by decide

def fromLeBytes : List UInt8 → Nat
  | [] => 0
  | byte :: rest => byte.toNat + 256 * fromLeBytes rest

def pointersAt (aspace : AddrSpace) (addr : Nat) : Nat → Option (List Nat)
  | 0 => some []
  | count + 1 => do
      let bytes ← aspace.bytesAt addr 8
      let rest ← pointersAt aspace (addr + 8) count
      return fromLeBytes bytes :: rest

namespace UserConstPtr

/-- `UserConstPtr::<UserConstPtr<c_char>>::get_as_null_terminated`. -/
def getPointers (axmm : Axmm) (aspace : AddrSpace) (fuel addr : Nat) :
    Except (Fault LinuxError) (List Nat) := do
  let len ← checkNullTerminated axmm aspace .pointer accessFlags fuel addr
  match pointersAt aspace addr len with
  | some pointers => .ok pointers
  | none => .error .exited

/-- `UserConstPtr::<c_char>::get_as_str`. -/
def getAsStr (axmm : Axmm) (aspace : AddrSpace) (fuel addr : Nat) :
    Except (Fault LinuxError) Str := do
  let len ← checkNullTerminated axmm aspace .byte accessFlags fuel addr
  match aspace.bytesAt addr len with
  | none => .error .exited
  | some bytes =>
      match Str.fromUtf8 bytes with
      | some text => .ok text
      | none => .error (.err .EILSEQ)

end UserConstPtr

end Vegar.Mm

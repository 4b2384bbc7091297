import Vegar.Mm.UserMemory

/-!
# Numbers in the order of the machine and of the network

`to_be`, `from_be`, `to_ne_bytes` and `from_ne_bytes` on machines of both byte
orders.
-/

namespace Vegar.Net

open Vegar.Lib Vegar.Mm

inductive ByteOrder where
  | little
  | big
  deriving DecidableEq, Repr

def beCodec (count : Nat) : Memory.Codec UInt8 (BitVec (8 * count)) := (leCodec count).reversed

def ByteOrder.codec (order : ByteOrder) (count : Nat) :
    Memory.Codec UInt8 (BitVec (8 * count)) where
  size := count
  encode value :=
    match order with
    | .little => (leCodec count).encode value
    | .big => (beCodec count).encode value
  decode bytes :=
    match order with
    | .little => (leCodec count).decode bytes
    | .big => (beCodec count).decode bytes
  length_encode value := by
    cases order with
    | little => exact (leCodec count).length_encode value
    | big => exact (beCodec count).length_encode value
  decode_encode value := by
    cases order with
    | little => exact (leCodec count).decode_encode value
    | big => exact (beCodec count).decode_encode value

/-- `swap_bytes`. -/
def swapBytes {count : Nat} (value : BitVec (8 * count)) : BitVec (8 * count) :=
  (leCodec count).decode ((leCodec count).encode value).reverse

/-- `to_be` and `from_be`. -/
def ByteOrder.toBe (order : ByteOrder) (count : Nat)
    (value : BitVec (8 * count)) : BitVec (8 * count) :=
  match order with
  | .little => swapBytes value
  | .big => value

/-! ## Both orders -/

theorem fromLeBytes_lt (bytes : List UInt8) :
    fromLeBytes bytes < 256 ^ bytes.length := by
  induction bytes with
  | nil => exact Nat.one_pos
  | cons byte rest ih =>
      have small := byte.toNat_lt
      rw [fromLeBytes, List.length_cons, Nat.pow_add_one']
      omega

theorem toLeBytes_fromLeBytes (bytes : List UInt8) :
    toLeBytes bytes.length (fromLeBytes bytes) = bytes := by
  induction bytes with
  | nil => rfl
  | cons byte rest ih =>
      have small := byte.toNat_lt
      have first : UInt8.ofNat (fromLeBytes (byte :: rest)) = byte := by
        apply UInt8.toNat_inj.mp
        rw [UInt8.toNat_ofNat', fromLeBytes]
        omega
      have later : fromLeBytes (byte :: rest) / 256 = fromLeBytes rest := by
        rw [fromLeBytes]
        omega
      rw [List.length_cons, toLeBytes, first, later, ih]

theorem leCodec_onto (count : Nat) : (leCodec count).Onto := by
  intro bytes length
  change bytes.length = count at length
  have bounded := fromLeBytes_lt bytes
  have isPower : 256 ^ bytes.length = 2 ^ (8 * count) := by
    rw [length, Nat.pow_mul]
  change toLeBytes count (BitVec.ofNat _ (fromLeBytes bytes)).toNat = bytes
  rw [BitVec.toNat_ofNat, Nat.mod_eq_of_lt (by omega), ← length]
  exact toLeBytes_fromLeBytes bytes

namespace ByteOrder

variable (order : ByteOrder) {count : Nat}

theorem codec_onto (count : Nat) : (order.codec count).Onto := by
  cases order with
  | little => exact leCodec_onto count
  | big => exact (leCodec_onto count).reversed

theorem encode_toBe (value : BitVec (8 * count)) :
    (order.codec count).encode (order.toBe count value) = (beCodec count).encode value := by
  cases order with
  | little =>
      apply leCodec_onto count
      rw [List.length_reverse, (leCodec count).length_encode]
  | big => rfl

theorem toBe_decode {bytes : List UInt8} (length : bytes.length = count) :
    order.toBe count ((order.codec count).decode bytes) = (beCodec count).decode bytes := by
  cases order with
  | little =>
      have back := leCodec_onto count bytes length
      change (leCodec count).decode
        ((leCodec count).encode ((leCodec count).decode bytes)).reverse = _
      rw [back]
      rfl
  | big => rfl

theorem toBe_toBe (value : BitVec (8 * count)) :
    order.toBe count (order.toBe count value) = value := by
  have decoded := (order.codec count).decode_encode (order.toBe count value)
  have length : ((order.codec count).encode (order.toBe count value)).length = count :=
    (order.codec count).length_encode _
  rw [← decoded, order.toBe_decode length, order.encode_toBe, (beCodec count).decode_encode]

end ByteOrder

end Vegar.Net

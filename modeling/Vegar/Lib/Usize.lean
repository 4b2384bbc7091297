import Mathlib.Data.Nat.Bitwise
import Mathlib.Tactic.NormNum

/-!
# 64-bit address arithmetic

Natural numbers below `2 ^ 64` with additions that are undefined on overflow,
the rounding of addresses to 4K pages, and the bit test for alignment.
-/

namespace Vegar.Lib

/-- `usize::MAX`. -/
def usizeMax : Nat := 2 ^ 64 - 1

/-- `isize::MAX` as an unsigned number. -/
def isizeMax : Nat := 2 ^ 63 - 1

/-- `PAGE_SIZE_4K`. -/
def pageSize4k : Nat := 4096

def usizeAdd (left right : Nat) : Option Nat :=
  if left + right ≤ usizeMax then some (left + right) else none

def usizeSub (left right : Nat) : Option Nat :=
  if right ≤ left then some (left - right) else none

/-- `align_down_4k`. -/
def alignDown4k (addr : Nat) : Nat := addr - addr % pageSize4k

/-- `align_up_4k`: `(addr + PAGE_SIZE_4K - 1) & !(PAGE_SIZE_4K - 1)`, whose
addition comes first and may overflow. -/
def alignUp4k (addr : Nat) : Option Nat :=
  (usizeAdd addr pageSize4k).map fun sum => alignDown4k (sum - 1)

@[simp]
theorem usizeAdd_eq_some {left right sum : Nat} :
    usizeAdd left right = some sum ↔ left + right ≤ usizeMax ∧ left + right = sum := by
  unfold usizeAdd
  split <;> simp_all

@[simp]
theorem usizeAdd_eq_none {left right : Nat} :
    usizeAdd left right = none ↔ usizeMax < left + right := by
  unfold usizeAdd
  split <;> simp_all

theorem usizeSub_of_le {left right : Nat} (fits : right ≤ left) :
    usizeSub left right = some (left - right) :=
  if_pos fits

theorem usizeAdd_of_le {left right : Nat} (fits : left + right ≤ usizeMax) :
    usizeAdd left right = some (left + right) :=
  if_pos fits

theorem and_pred_eq_zero_iff {align : Nat} (power : ∃ exponent, align = 2 ^ exponent) (addr : Nat) :
    addr &&& (align - 1) = 0 ↔ addr % align = 0 := by
  obtain ⟨exponent, rfl⟩ := power
  rw [Nat.and_two_pow_sub_one_eq_mod]

end Vegar.Lib

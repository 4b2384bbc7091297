import Mathlib.Data.Nat.ModEq
import Mathlib.Tactic.Ring

/-!
# Circular windows

A fixed array read circularly: `window cells head length` lists the `length`
cells from `head` on, wrapping at the end of the array.  Appending at the
back and removing at the front are the two facts a ring buffer rests on.
-/

namespace Vegar.Lib.Circular

universe u

variable {α : Type u} {capacity : Nat} [NeZero capacity]

def cell (cells : Vector α capacity) (position : Nat) : α :=
  cells.get ⟨position % capacity, Nat.mod_lt _ (NeZero.pos capacity)⟩

/-- The `length` cells from position `head` on. -/
def window (cells : Vector α capacity) : (head length : Nat) → List α
  | _, 0 => []
  | head, length + 1 =>
      cell cells head :: window cells (head + 1) length

@[simp]
theorem window_zero (cells : Vector α capacity) (head : Nat) : window cells head 0 = [] := rfl

theorem window_succ (cells : Vector α capacity) (head length : Nat) :
    window cells head (length + 1) = cell cells head :: window cells (head + 1) length :=
  rfl

@[simp]
theorem length_window (cells : Vector α capacity) (head length : Nat) :
    (window cells head length).length = length := by
  induction length generalizing head with
  | zero =>
      rfl
  | succ length ih =>
      simp [window_succ, ih]

theorem cell_of_lt (cells : Vector α capacity) {position : Nat} (inside : position < capacity) :
    cell cells position = cells[position] := by
  simp only [cell, Nat.mod_eq_of_lt inside]
  rfl

theorem cell_mod (cells : Vector α capacity) (position : Nat) :
    cell cells (position % capacity) = cell cells position := by
  simp [cell]

theorem window_congr (cells : Vector α capacity) {left right : Nat}
    (congruent : left % capacity = right % capacity)
    (length : Nat) :
    window cells left length = window cells right length := by
  induction length generalizing left right with
  | zero =>
      rfl
  | succ length ih =>
      have sameCell : cell cells left = cell cells right := by
        rw [← cell_mod, congruent, cell_mod]
      have sameNext : (left + 1) % capacity = (right + 1) % capacity :=
        Nat.ModEq.add_right 1 congruent
      rw [window_succ, window_succ, sameCell, ih sameNext]

theorem window_mod (cells : Vector α capacity) (head length : Nat) :
    window cells (head % capacity) length =
      window cells head length :=
  window_congr cells (Nat.mod_mod head capacity) length

theorem window_snoc (cells : Vector α capacity) (head length : Nat) :
    window cells head (length + 1) = window cells head length ++ [cell cells (head + length)] := by
  induction length generalizing head with
  | zero =>
      rfl
  | succ length ih =>
      rw [window_succ, ih, window_succ]
      rw [show head + 1 + length = head + (length + 1) by ring]
      rfl

theorem cell_set (cells : Vector α capacity) {stored : Nat}
    (inside : stored < capacity) (value : α) (position : Nat) :
    cell (cells.set stored value inside) position =
      if position % capacity = stored then value
      else cell cells position := by
  have bound : position % capacity < capacity := Nat.mod_lt _ (NeZero.pos capacity)
  rw [← cell_mod, cell_of_lt _ bound, ← cell_mod cells, cell_of_lt cells bound, Vector.getElem_set]
  simp only [eq_comm]

omit [NeZero capacity] in
theorem mod_ne_of_lt {head nearer farther : Nat}
    (before : nearer < farther) (within : farther < capacity) :
    (head + nearer) % capacity ≠ (head + farther) % capacity := by
  intro same
  have divides : capacity ∣ (head + farther) - (head + nearer) :=
    (Nat.modEq_iff_dvd' (by omega)).mp same
  have gap : (head + farther) - (head + nearer) = farther - nearer := by
    omega
  rw [gap] at divides
  have := Nat.le_of_dvd (by omega) divides
  omega

theorem window_set_back (cells : Vector α capacity) (head : Nat) {length back : Nat}
    (short : length ≤ back) (room : back < capacity)
    {stored : Nat} (inside : stored < capacity)
    (atBack : stored = (head + back) % capacity) (value : α) :
    window (cells.set stored value inside) head length =
      window cells head length := by
  induction length generalizing head back with
  | zero =>
      rfl
  | succ length ih =>
      have headDiffers : head % capacity ≠ stored := by
        rw [atBack]
        exact @mod_ne_of_lt capacity head 0 back (by omega) room
      rw [window_succ, window_succ, cell_set, if_neg headDiffers]
      rw [@ih (head + 1) (back - 1) (by omega) (by omega)]
      rw [atBack]
      congr 1
      omega

theorem window_push (cells : Vector α capacity) (head : Nat) {length : Nat}
    (room : length < capacity)
    {stored : Nat} (inside : stored < capacity)
    (atBack : stored = (head + length) % capacity) (value : α) :
    window (cells.set stored value inside) head (length + 1) =
      window cells head length ++ [value] := by
  rw [window_snoc, window_set_back cells head (le_refl length) room
    inside atBack, cell_set, if_pos atBack.symm]

end Vegar.Lib.Circular

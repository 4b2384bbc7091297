import Mathlib.Data.List.Basic

/-!
# Sequences of self-delimiting records

A decoder for one record that also says how long the record is gives a
decoder for a sequence of records.  A sequence is framed by its items if each
record decodes to its item whatever follows it; framed sequences can be
extended at the end, and they decode to their items.
-/

namespace Vegar.Lib

universe u v

variable {Cell : Type u} {Item : Type v}

/-- Decode record after record, at most `fuel` of them. -/
def decodeAll (decodeOne : List Cell → Option (Item × Nat)) :
    (fuel : Nat) → List Cell → Option (List Item)
  | _, [] => some []
  | 0, _ :: _ => none
  | fuel + 1, first :: rest =>
      match decodeOne (first :: rest) with
      | none => none
      | some (item, length) =>
          (decodeAll decodeOne fuel ((first :: rest).drop length)).map (item :: ·)

structure IsRecord (decodeOne : List Cell → Option (Item × Nat))
    (record : List Cell) (item : Item) : Prop where
  nonempty : record ≠ []
  decodes : ∀ rest, decodeOne (record ++ rest) = some (item, record.length)

inductive Framed (decodeOne : List Cell → Option (Item × Nat)) : List Cell → List Item → Prop
  | nil : Framed decodeOne [] []
  | cons {record rest : List Cell} {item : Item} {items : List Item} :
      IsRecord decodeOne record item →
      Framed decodeOne rest items →
      Framed decodeOne (record ++ rest) (item :: items)

namespace Framed

variable {decodeOne : List Cell → Option (Item × Nat)}

theorem snoc {cells record : List Cell} {items : List Item} {item : Item}
    (framed : Framed decodeOne cells items)
    (isRecord : IsRecord decodeOne record item) :
    Framed decodeOne (cells ++ record) (items ++ [item]) := by
  induction framed with
  | nil =>
      have single := Framed.cons isRecord Framed.nil
      rw [List.append_nil] at single
      exact single
  | cons first _ ih =>
      rw [List.append_assoc]
      exact Framed.cons first ih

theorem decodeAll_eq {cells : List Cell} {items : List Item} (framed : Framed decodeOne cells items)
    {fuel : Nat} (enough : cells.length ≤ fuel) :
    decodeAll decodeOne fuel cells = some items := by
  induction framed generalizing fuel with
  | nil =>
      rw [decodeAll]
  | @cons record rest item items isRecord _ ih =>
      cases record with
      | nil =>
          exact (isRecord.nonempty rfl).elim
      | cons first others =>
          simp only [List.length_append, List.length_cons] at enough
          cases fuel with
          | zero =>
              omega
          | succ fuel =>
              have decoded := isRecord.decodes rest
              rw [List.cons_append] at decoded ⊢
              rw [decodeAll, decoded]
              simp only [← List.cons_append, List.drop_left]
              rw [ih (by omega), Option.map_some]

end Framed

end Vegar.Lib

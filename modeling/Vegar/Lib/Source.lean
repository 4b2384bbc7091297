import Mathlib.Data.List.Basic

/-!
# Sources of items and readers in front of them

A source hands over at most as many items as it is asked for; `taken` are
those handed over so far.  A loop that asks again is a source itself, and a
buffer in front of a source loses, repeats and reorders nothing.
-/

namespace Vegar.Lib

universe u v w

structure Source (State : Type u) (Item : Type v) where
  read : Nat → State → List Item × State
  taken : State → List Item
  short : ∀ count state, (read count state).1.length ≤ count
  handed : ∀ count state, taken (read count state).2 = taken state ++ (read count state).1

namespace Source

variable {State : Type u} {Item : Type v} {Other : Type w}

/-! ## Asking again -/

def drainLoop (source : Source State Item) : Nat → Nat → State → List Item × State
  | 0, _, state => ([], state)
  | fuel + 1, count, state =>
      if count = 0 then ([], state)
      else
        let first := source.read count state
        if first.1 = [] then ([], first.2)
        else
          let rest := source.drainLoop fuel (count - first.1.length) first.2
          (first.1 ++ rest.1, rest.2)

section Drain

variable (source : Source State Item)

private theorem drainLoop_handed :
    ∀ fuel count state,
      source.taken (source.drainLoop fuel count state).2 =
        source.taken state ++ (source.drainLoop fuel count state).1
  | 0, _, _ => by simp [drainLoop]
  | fuel + 1, count, state => by
      have first := source.handed count state
      have rest := drainLoop_handed fuel (count - (source.read count state).1.length)
          (source.read count state).2
      rw [drainLoop]
      split
      · simp
      · simp only
        split
        · next nothing => rw [first, nothing]
        · rw [rest, first, List.append_assoc]

private theorem drainLoop_short :
    ∀ fuel count state, (source.drainLoop fuel count state).1.length ≤ count
  | 0, _, _ => Nat.zero_le _
  | fuel + 1, count, state => by
      have first := source.short count state
      have rest := drainLoop_short fuel (count - (source.read count state).1.length)
          (source.read count state).2
      rw [drainLoop]
      split
      · exact Nat.zero_le _
      · simp only
        split
        · exact Nat.zero_le _
        · rw [List.length_append]
          omega

def drain (convert : Item → Other) : Source State Other where
  read count state :=
    let result := source.drainLoop count count state
    (result.1.map convert, result.2)
  taken state := (source.taken state).map convert
  short count state := by
    rw [List.length_map]
    exact source.drainLoop_short count count state
  handed count state := by
    rw [source.drainLoop_handed count count state, List.map_append]

theorem drain_eq_nil {convert : Item → Other} {count : Nat} {state : State} (wanted : 0 < count)
    (nothing : ((source.drain convert).read count state).1 = []) :
    (source.read count state).1 = [] := by
  obtain ⟨fuel, rfl⟩ := Nat.exists_eq_succ_of_ne_zero (Nat.ne_of_gt wanted)
  have empty : (source.drainLoop (fuel + 1) (fuel + 1) state).1 = [] :=
    List.map_eq_nil_iff.mp nothing
  rw [drainLoop, if_neg (Nat.succ_ne_zero fuel)] at empty
  by_contra some_
  simp only [if_neg some_, List.append_eq_nil_iff] at empty
  exact some_ empty.1

end Drain

/-! ## A buffer in front of a source -/

/-- A reader with a buffer in front of a source: what was buffered and what
the source hands over is what the reader gets, followed by what is buffered
then, and a reader that asked for something gets nothing only where nothing
was buffered and the source had nothing. -/
structure Buffered (source : Source State Item) (Buffer : Type w) where
  new : Buffer
  held : Buffer → List Item
  capacity : Nat
  read : Nat → Buffer → State → List Item × Buffer × State
  held_new : held new = []
  short : ∀ count buffer state, (read count buffer state).1.length ≤ count
  bounded :
    ∀ count buffer state, (held buffer).length ≤ capacity →
      (held (read count buffer state).2.1).length ≤ capacity
  conserves :
    ∀ count buffer state,
      ∃ fresh,
        source.taken (read count buffer state).2.2 = source.taken state ++ fresh ∧
          held buffer ++ fresh = (read count buffer state).1 ++ held (read count buffer state).2.1
  empty :
    ∀ count buffer state, 0 < count → (read count buffer state).1 = [] →
      held buffer = [] ∧ ∃ asked, 0 < asked ∧ (source.read asked state).1 = []

end Source

end Vegar.Lib

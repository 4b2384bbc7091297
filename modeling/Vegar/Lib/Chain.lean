import Mathlib.Order.Preorder.Finite

/-!
# Chains of a partial function

Following a partial function from a starting point either comes to a point
where it is undefined, or goes on for ever.  If it takes finitely many
values, it goes on for ever exactly when it comes to some point twice.
-/

namespace Vegar.Lib

universe u

variable {Point : Type u}

def chain (next : Point → Option Point) : Nat → Point → Option Point
  | 0, point => some point
  | count + 1, point => (next point).bind (chain next count)

def ChainEnds (next : Point → Option Point) (start : Point) : Prop :=
  ∃ count, chain next count start = none

def ChainRevisits (next : Point → Option Point) (start : Point) : Prop :=
  ∃ earlier later point, earlier < later ∧ chain next earlier start = some point ∧
    chain next later start = some point

variable {next : Point → Option Point} {start : Point}

theorem chain_add (first second : Nat) (point : Point) :
    chain next (first + second) point = (chain next first point).bind (chain next second) := by
  induction first generalizing point with
  | zero =>
      rw [Nat.zero_add, chain, Option.bind_some]
  | succ first ih =>
      rw [Nat.add_right_comm, chain, chain]
      cases next point with
      | none => rfl
      | some after => exact ih after

theorem chain_none_of_le {count more : Nat} (ended : chain next count start = none)
    (longer : count ≤ more) : chain next more start = none := by
  obtain ⟨rest, rfl⟩ := Nat.exists_eq_add_of_le longer
  rw [chain_add, ended, Option.bind_none]

theorem chain_loop {point : Point} {period : Nat}
    (returns : chain next period point = some point) (rounds : Nat) :
    chain next (rounds * period) point = some point := by
  induction rounds with
  | zero =>
      rw [Nat.zero_mul, chain]
  | succ rounds ih =>
      rw [Nat.succ_mul, chain_add, ih, Option.bind_some, returns]

theorem not_chainEnds_of_revisits
    (revisits : ChainRevisits next start) : ¬ ChainEnds next start := by
  obtain ⟨earlier, later, point, before, atEarlier, atLater⟩ := revisits
  rintro ⟨count, ended⟩
  have returns : chain next (later - earlier) point = some point := by
    rw [← Nat.add_sub_cancel' (Nat.le_of_lt before), chain_add, atEarlier,
      Option.bind_some] at atLater
    exact atLater
  have still :
      chain next (earlier + count * (later - earlier)) start =
        some point := by
    rw [chain_add, atEarlier, Option.bind_some, chain_loop returns]
  have far : count ≤ earlier + count * (later - earlier) :=
    Nat.le_add_left_of_le (Nat.le_mul_of_pos_right count (Nat.sub_pos_of_lt before))
  rw [chain_none_of_le ended far] at still
  cases still

theorem chainEnds_iff (finite : {value | ∃ point, next point = some value}.Finite) :
    ChainEnds next start ↔ ¬ ChainRevisits next start := by
  constructor
  · exact fun ends revisits => not_chainEnds_of_revisits revisits ends
  · intro noRevisit
    by_contra endless
    have defined : ∀ count, ∃ point, chain next count start = some point := by
      intro count
      exact Option.ne_none_iff_exists'.mp fun ended => endless ⟨count, ended⟩
    choose visited isVisited using defined
    have value : ∀ count, visited (count + 1) ∈ {value | ∃ point, next point = some value} := by
      intro count
      have stepped := isVisited (count + 1)
      rw [chain_add, isVisited count, Option.bind_some, chain] at stepped
      obtain ⟨after, isNext, atEnd⟩ := Option.bind_eq_some_iff.mp stepped
      rw [chain, Option.some.injEq] at atEnd
      exact ⟨visited count, isNext.trans (congrArg some atEnd)⟩
    obtain ⟨earlier, later, before, same⟩ := finite.exists_lt_map_eq_of_forall_mem value
    refine noRevisit ⟨earlier + 1, later + 1, visited (earlier + 1),
      Nat.succ_lt_succ before, isVisited _, ?_⟩
    rw [same]
    exact isVisited _

end Vegar.Lib

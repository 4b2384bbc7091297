import Mathlib.Data.List.Chain
import Mathlib.Data.List.Flatten
import Mathlib.Data.List.Induction
import Vegar.Lib.Roster

/-!
# Names behind separators

Texts that are made of names, each behind a separator, with or without one
more separator at the end.  The names of a text are its components; texts with
the same components are two spellings of one thing.
-/

namespace Vegar.Lib.Separated

universe u

variable {α : Type u} [DecidableEq α] (sep : α)

def components (text : List α) : List (List α) :=
  (text.splitOn sep).filter fun part => !part.isEmpty

def joined (names : List (List α)) : List α := names.flatMap fun name => sep :: name

structure Normal (text : List α) : Prop where
  starts : text.head? = some sep
  single : text.IsChain fun left right => left ≠ sep ∨ right ≠ sep

instance (text : List α) : Decidable (Normal sep text) :=
  decidable_of_iff (text.head? = some sep ∧ text.IsChain fun left right => left ≠ sep ∨ right ≠ sep)
    ⟨fun ⟨starts, single⟩ => ⟨starts, single⟩, fun normal => ⟨normal.starts, normal.single⟩⟩

structure Spells (names : List (List α)) (text : List α) : Prop where
  nonempty : ∀ name ∈ names, name ≠ []
  separated : ∀ name ∈ names, sep ∉ name
  spelling : text = joined sep names ∨ text = joined sep names ++ [sep]

variable {sep} {names : List (List α)} {text other : List α}

omit [DecidableEq α] in
theorem joined_append (first second : List (List α)) :
    joined sep (first ++ second) = joined sep first ++ joined sep second :=
  List.flatMap_append

omit [DecidableEq α] in
theorem joined_singleton (name : List α) : joined sep [name] = sep :: name :=
  List.flatMap_singleton _ _

omit [DecidableEq α] in
theorem joined_eq_cons_intercalate (someName : names ≠ []) :
    joined sep names = sep :: [sep].intercalate names := by
  induction names with
  | nil => exact absurd rfl someName
  | cons name rest ih =>
      cases rest with
      | nil =>
          rw [joined_singleton, List.intercalate_singleton]
      | cons next others =>
          have later := ih (List.cons_ne_nil _ _)
          rw [List.intercalate_cons_cons, List.append_assoc, List.singleton_append, ← later]
          rfl

/-! ## Components -/

theorem components_append_cons (first second : List α) :
    components sep (first ++ sep :: second) =
      components sep first ++ components sep second := by
  rw [components, List.splitOn_append_cons_self, List.filter_append]
  rfl

theorem components_nil : components sep [] = [] := by
  rw [components, List.splitOn_nil]
  rfl

theorem components_append_sep (text : List α) :
    components sep (text ++ [sep]) = components sep text := by
  rw [components_append_cons, components_nil, List.append_nil]

theorem components_name {name : List α} (nonempty : name ≠ []) (separated : sep ∉ name) :
    components sep name = [name] := by
  rw [components, List.splitOn_eq_singleton separated]
  simpa using nonempty

theorem not_mem_of_mem_splitOn {part : List α} (member : part ∈ text.splitOn sep) : sep ∉ part := by
  induction text generalizing part with
  | nil =>
      rw [List.splitOn_nil, List.mem_singleton] at member
      rw [member]
      exact List.not_mem_nil
  | cons first rest ih =>
      rw [List.splitOn_cons_eq_if_modifyHead] at member
      split at member
      · rcases List.mem_cons.mp member with rfl | later
        · exact List.not_mem_nil
        · exact ih later
      · next notSep =>
          cases parts : rest.splitOn sep with
          | nil => exact absurd parts (List.splitOn_ne_nil _ _)
          | cons front others =>
              rw [parts] at member ih
              rcases List.mem_cons.mp member with rfl | later
              · have different : sep ≠ first := by
                  rintro rfl
                  exact notSep (beq_self_eq_true _)
                exact List.not_mem_cons_of_ne_of_not_mem different (ih List.mem_cons_self)
              · exact ih (List.mem_cons_of_mem _ later)

theorem name_of_mem_components {name : List α} (member : name ∈ components sep text) :
    name ≠ [] ∧ sep ∉ name := by
  obtain ⟨isPart, isName⟩ := List.mem_filter.mp member
  exact ⟨by simpa using isName, not_mem_of_mem_splitOn isPart⟩

theorem length_joined_splitOn (text : List α) :
    (joined sep (text.splitOn sep)).length = text.length + 1 := by
  induction text with
  | nil =>
      rw [List.splitOn_nil]
      rfl
  | cons first rest ih =>
      rw [List.splitOn_cons_eq_if_modifyHead]
      split
      · rw [joined, List.flatMap_cons, List.length_append]
        change 1 + (joined sep (rest.splitOn sep)).length = _
        rw [ih, List.length_cons]
        omega
      · cases parts : rest.splitOn sep with
        | nil => exact absurd parts (List.splitOn_ne_nil _ _)
        | cons front others =>
            rw [parts] at ih
            simp only [joined, List.flatMap_cons, List.length_append,
              List.length_cons, List.modifyHead_cons]
              at ih ⊢
            omega

theorem length_joined_components_le (starts : text.head? = some sep) :
    (joined sep (components sep text)).length ≤ text.length := by
  obtain ⟨rest, rfl⟩ := List.head?_eq_some_iff.mp starts
  have cut := @components_append_cons _ _ sep [] rest
  rw [List.nil_append, components_nil, List.nil_append] at cut
  have fewer := (List.filter_sublist (l := rest.splitOn sep)
      (p := fun part => !part.isEmpty)).flatMap fun name => sep :: name
  calc
    (joined sep (components sep (sep :: rest))).length =
        (joined sep (components sep rest)).length := by
      rw [cut]
    _ ≤ (joined sep (rest.splitOn sep)).length := fewer.length_le
    _ = (sep :: rest).length := length_joined_splitOn rest

theorem components_append_joined (nonempty : ∀ name ∈ names, name ≠ [])
    (separated : ∀ name ∈ names, sep ∉ name) (first : List α) :
    components sep (first ++ joined sep names) =
      components sep first ++ names := by
  induction names generalizing first with
  | nil =>
      rw [joined, List.flatMap_nil, List.append_nil, List.append_nil]
  | cons name rest ih =>
      have later := ih (fun part member => nonempty part (List.mem_cons_of_mem _ member))
          (fun part member => separated part (List.mem_cons_of_mem _ member))
          (first ++ sep :: name)
      have isName :=
        components_name (nonempty name List.mem_cons_self) (separated name List.mem_cons_self)
      calc
        components sep (first ++ joined sep (name :: rest)) =
            components sep ((first ++ sep :: name) ++ joined sep rest) := by
          rw [List.append_assoc]
          rfl
        _ = components sep (first ++ sep :: name) ++ rest := later
        _ = components sep first ++ name :: rest := by
          rw [components_append_cons, isName, List.append_assoc]
          rfl

theorem Spells.components_eq (spells : Spells sep names text) : components sep text = names := by
  have isNames : components sep (joined sep names) = names := by
    have joinedNames := components_append_joined spells.nonempty spells.separated []
    rw [components_nil, List.nil_append] at joinedNames
    exact joinedNames
  rcases spells.spelling with rfl | rfl
  · exact isNames
  · rw [components_append_sep, isNames]

/-! ## Normal texts -/

section Normal

omit [DecidableEq α]

theorem Normal.of_isPrefix (normal : Normal sep text) (starts : other.head? = some sep)
    (within : other <+: text) : Normal sep other :=
  ⟨starts, normal.single.prefix within⟩

theorem Normal.append_sep (normal : Normal sep text) (isOpen : text.getLast? ≠ some sep) :
    Normal sep (text ++ [sep]) := by
  constructor
  · rw [List.head?_append, normal.starts]
    rfl
  · rw [List.isChain_append]
    refine ⟨normal.single, List.isChain_singleton _, ?_⟩
    intro last isLast first isFirst
    refine Or.inl ?_
    rintro rfl
    exact isOpen isLast

theorem Spells.append {last : α} (spells : Spells sep names text)
    (notTwice : text.getLast? = some sep → last ≠ sep)
    (nonempty : text ≠ []) :
    ∃ more, Spells sep more (text ++ [last]) := by
  rcases spells.spelling with rfl | rfl
  · by_cases isSep : last = sep
    · rw [isSep]
      exact ⟨names, spells.nonempty, spells.separated, Or.inr rfl⟩
    · rcases List.eq_nil_or_concat' names with rfl | ⟨before, name, rfl⟩
      · exact absurd rfl nonempty
      · refine ⟨before ++ [name ++ [last]], ?_, ?_, Or.inl ?_⟩
        · have before := (List.forall_mem_append.mp spells.nonempty).1
          exact Roster.forall_mem_concat before (by simp)
        · obtain ⟨before, ofName⟩ := List.forall_mem_append.mp spells.separated
          have outside := List.forall_mem_singleton.mp ofName
          apply Roster.forall_mem_concat before
          simp [outside, Ne.symm isSep]
        · rw [joined_append, joined_append, joined_singleton,
            joined_singleton, List.append_assoc, List.cons_append]
  · have isName : last ≠ sep := notTwice (by simp)
    refine ⟨names ++ [[last]], ?_, ?_, Or.inl ?_⟩
    · exact Roster.forall_mem_concat spells.nonempty (by simp)
    · apply Roster.forall_mem_concat spells.separated
      simpa using Ne.symm isName
    · rw [joined_append, joined_singleton, List.append_assoc, List.singleton_append]

theorem Normal.exists_spells (normal : Normal sep text) : ∃ names, Spells sep names text := by
  induction text using List.reverseRecOn with
  | nil => cases normal.starts
  | append_singleton before last ih =>
      cases before with
      | nil =>
          obtain rfl := Option.some.inj normal.starts
          exact ⟨[], nofun, nofun, Or.inr rfl⟩
      | cons first rest =>
          have parts := List.isChain_append.mp normal.single
          obtain ⟨names, spells⟩ := ih ⟨normal.starts, parts.1⟩
          apply spells.append _ (List.cons_ne_nil _ _)
          intro isSep same
          have single := parts.2.2 sep isSep last rfl
          simp [same] at single

theorem isChain_joined_append (nonempty : ∀ name ∈ names, name ≠ [])
    (separated : ∀ name ∈ names, sep ∉ name)
    (single : other.IsChain fun left right => left ≠ sep ∨ right ≠ sep) :
    (joined sep names ++ other).IsChain fun left right => left ≠ sep ∨ right ≠ sep := by
  induction names with
  | nil => exact single
  | cons name rest ih =>
      obtain ⟨nameNonempty, restNonempty⟩ := List.forall_mem_cons.mp nonempty
      obtain ⟨nameSeparated, restSeparated⟩ := List.forall_mem_cons.mp separated
      have notSep : ∀ char ∈ name, char ≠ sep :=
        fun char member => ne_of_mem_of_not_mem member nameSeparated
      have first : (sep :: name).IsChain fun left right => left ≠ sep ∨ right ≠ sep := by
        apply List.Pairwise.isChain
        refine List.pairwise_cons.mpr ⟨?_, ?_⟩
        · intro char member
          exact .inr (notSep char member)
        · apply List.pairwise_of_forall_mem_list
          intro left member right _
          exact .inl (notSep left member)
      have later := ih restNonempty restSeparated
      change ((sep :: name ++ joined sep rest) ++ other).IsChain _
      rw [List.append_assoc]
      refine List.isChain_append.mpr ⟨first, later, ?_⟩
      intro last isLast right _
      obtain ⟨char, others, rfl⟩ := List.exists_cons_of_ne_nil nameNonempty
      rw [List.getLast?_cons_cons] at isLast
      exact .inl (notSep last (List.mem_of_getLast? isLast))

theorem Spells.normal (spells : Spells sep names text) (nonempty : text ≠ []) :
    Normal sep text := by
  constructor
  · cases names with
    | nil =>
        rcases spells.spelling with isNil | isSep
        · exact absurd isNil nonempty
        · rw [isSep]
          rfl
    | cons name rest =>
        rcases spells.spelling with rfl | rfl <;> rfl
  · rcases spells.spelling with isJoined | isSlashed
    · have chain := isChain_joined_append spells.nonempty spells.separated (List.isChain_nil)
      rw [List.append_nil] at chain
      rw [isJoined]
      exact chain
    · rw [isSlashed]
      exact isChain_joined_append spells.nonempty spells.separated (List.isChain_singleton sep)

end Normal

theorem isPrefix_of_components (normal : Normal sep text) (otherNormal : Normal sep other)
    (below : components sep text <+: components sep other)
    (different : components sep text ≠ components sep other) :
    text <+: other := by
  obtain ⟨names, spells⟩ := normal.exists_spells
  obtain ⟨otherNames, otherSpells⟩ := otherNormal.exists_spells
  rw [spells.components_eq, otherSpells.components_eq] at below different
  obtain ⟨rest, rfl⟩ := below
  cases rest with
  | nil =>
      rw [List.append_nil] at different
      exact absurd rfl different
  | cons next rest =>
      have beforeOther : text <+: joined sep (names ++ next :: rest) := by
        rw [joined_append]
        rcases spells.spelling with rfl | rfl
        · exact List.prefix_append _ _
        · refine (List.prefix_append_right_inj _).mpr ?_
          exact ⟨next ++ joined sep rest, rfl⟩
      rcases otherSpells.spelling with rfl | rfl
      · exact beforeOther
      · exact beforeOther.trans (List.prefix_append _ _)

end Vegar.Lib.Separated

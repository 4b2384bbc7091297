import Mathlib.Data.List.TakeWhile

/-!
# Texts with blanks

A text is cut at its first blank and the parts are trimmed.  An encoding that
writes a blank as one blank code, and anything else without blank codes, makes
no difference to the cut.
-/

namespace Vegar.Lib.Blanks

universe u v

variable {α : Type u} {β : Type v}

def trim (blank : α → Bool) (text : List α) : List α :=
  ((text.dropWhile blank).reverse.dropWhile blank).reverse

def splitTwo (blank : α → Bool) (text : List α) : List (List α) :=
  match text.dropWhile fun char => !blank char with
  | [] => [text]
  | _ :: rest => [text.takeWhile fun char => !blank char, rest]

def trimmedParts (blank : α → Bool) (text : List α) : List (List α) :=
  (splitTwo blank text).map (trim blank)

/-! ## Words -/

section Words

variable {blank : α → Bool} {text : List α}

def Unbroken (blank : α → Bool) (text : List α) : Prop := ∀ char ∈ text, blank char = false

theorem dropWhile_of_unbroken (unbroken : Unbroken blank text) : text.dropWhile blank = text := by
  cases text with
  | nil => rfl
  | cons first rest =>
      rw [List.dropWhile_cons, unbroken first List.mem_cons_self]
      rfl

theorem trim_of_unbroken (unbroken : Unbroken blank text) : trim blank text = text := by
  have reversed : Unbroken blank text.reverse :=
    fun char isIn => unbroken char (List.mem_reverse.mp isIn)
  rw [trim, dropWhile_of_unbroken unbroken, dropWhile_of_unbroken reversed, List.reverse_reverse]

theorem trim_cons_of_blank {first : α} (isBlank : blank first = true) :
    trim blank (first :: text) = trim blank text := by
  rw [trim, List.dropWhile_cons_of_pos isBlank, trim]

theorem splitTwo_of_unbroken (unbroken : Unbroken blank text) : splitTwo blank text = [text] := by
  have nothingLeft : (text.dropWhile fun char => !blank char) = [] := by
    rw [List.dropWhile_eq_nil_iff]
    intro char isIn
    rw [unbroken char isIn]
    rfl
  rw [splitTwo, nothingLeft]

theorem splitTwo_append_cons (unbroken : Unbroken blank text) {separator : α}
    (isBlank : blank separator = true) (rest : List α) :
    splitTwo blank (text ++ separator :: rest) = [text, rest] := by
  have isPart : ∀ char ∈ text, (!blank char) = true := by
    intro char isIn
    rw [unbroken char isIn]
    rfl
  have stops : ¬ (!blank separator) = true := by
    rw [isBlank]
    decide
  have left : ((text ++ separator :: rest).dropWhile fun char => !blank char) = separator :: rest :=
    (List.dropWhile_append_of_pos isPart).trans (List.dropWhile_cons_of_neg stops)
  have taken :
      ((text ++ separator :: rest).takeWhile fun char => !blank char) =
        text ++ [] :=
    (List.takeWhile_append_of_pos isPart).trans
      (congrArg (text ++ ·) (List.takeWhile_cons_of_neg stops))
  rw [splitTwo, left, taken, List.append_nil]

theorem trimmedParts_cons_of_blank {first : α} (isBlank : blank first = true) (rest : List α) :
    trimmedParts blank (first :: rest) = [[], trim blank rest] := by
  have cut : splitTwo blank (first :: rest) = [[], rest] :=
    @splitTwo_append_cons _ blank [] nofun first isBlank rest
  rw [trimmedParts, cut]
  rfl

theorem trimmedParts_of_unbroken (unbroken : Unbroken blank text) :
    trimmedParts blank text = [text] := by
  rw [trimmedParts, splitTwo_of_unbroken unbroken, List.map_singleton, trim_of_unbroken unbroken]

theorem trimmedParts_append_cons (unbroken : Unbroken blank text) {separator : α}
    (isBlank : blank separator = true) (rest : List α) :
    trimmedParts blank (text ++ separator :: rest) = [text, trim blank (separator :: rest)] := by
  rw [trimmedParts, splitTwo_append_cons unbroken isBlank, List.map_cons,
    List.map_singleton, trim_of_unbroken unbroken,
    trim_cons_of_blank isBlank]

/-- A word with blanks in front and a tail behind is cut into the word and the
trimmed tail, if there is one, exactly if nothing stands in front and not only
blanks behind. -/
theorem trimmedParts_eq_word_iff
    {lead word tail : List α} (onlyBlanks : ∀ char ∈ lead, blank char = true)
    (nonempty : word ≠ []) (unbroken : Unbroken blank word)
    (separated : ∀ char ∈ tail.head?, blank char = true) :
    (trimmedParts blank (lead ++ word ++ tail) =
      word :: if (trim blank tail).isEmpty then [] else [trim blank tail]) ↔
    lead = [] ∧ (tail = [] ∨ trim blank tail ≠ []) := by
  cases lead with
  | cons first more =>
      rw [List.cons_append, List.cons_append,
        trimmedParts_cons_of_blank (onlyBlanks first List.mem_cons_self)]
      constructor
      · intro same
        exact (nonempty (List.cons.inj same).1.symm).elim
      · intro tight
        cases tight.1
  | nil =>
      rw [List.nil_append]
      cases tail with
      | nil =>
          rw [List.append_nil, trimmedParts_of_unbroken unbroken]
          exact ⟨fun _ => ⟨rfl, Or.inl rfl⟩, fun _ => rfl⟩
      | cons separator rest =>
          rw [trimmedParts_append_cons unbroken (separated separator rfl)]
          cases trimmed : trim blank (separator :: rest) with
          | nil => simp
          | cons kept others => simp

end Words

/-! ## Encodings -/

structure KeepsBlanks (blank : α → Bool) (blankCode : β → Bool) (encode : α → List β) : Prop where
  ofBlank : ∀ char, blank char = true → ∃ code, encode char = [code] ∧ blankCode code = true
  ofOther : ∀ char, blank char = false → encode char ≠ [] ∧ Unbroken blankCode (encode char)

namespace KeepsBlanks

variable {blank : α → Bool} {blankCode : β → Bool} {encode : α → List β}

theorem reversed (keeps : KeepsBlanks blank blankCode encode) :
    KeepsBlanks blank blankCode fun char => (encode char).reverse where
  ofBlank char isBlank := by
    obtain ⟨code, isCode, blankToo⟩ := keeps.ofBlank char isBlank
    exact ⟨code, by rw [isCode]; rfl, blankToo⟩
  ofOther char notBlank := by
    obtain ⟨nonempty, unbroken⟩ := keeps.ofOther char notBlank
    refine ⟨by simpa using nonempty, ?_⟩
    exact fun code isIn => unbroken code (List.mem_reverse.mp isIn)

theorem dropWhile_flatMap (keeps : KeepsBlanks blank blankCode encode) (text : List α) :
    (text.flatMap encode).dropWhile blankCode = (text.dropWhile blank).flatMap encode := by
  induction text with
  | nil => rfl
  | cons first rest ih =>
      rw [List.flatMap_cons]
      cases isBlank : blank first with
      | true =>
          obtain ⟨code, isCode, blankToo⟩ := keeps.ofBlank first isBlank
          rw [isCode, List.singleton_append, List.dropWhile_cons_of_pos blankToo,
            List.dropWhile_cons_of_pos isBlank, ih]
      | false =>
          obtain ⟨nonempty, unbroken⟩ := keeps.ofOther first isBlank
          obtain ⟨code, codes, isCode⟩ := List.exists_cons_of_ne_nil nonempty
          have notBlankCode : ¬ blankCode code = true := by
            rw [unbroken code (by rw [isCode]; exact List.mem_cons_self)]
            decide
          rw [List.dropWhile_cons_of_neg (by rw [isBlank]; decide),
            List.flatMap_cons, isCode, List.cons_append,
            List.dropWhile_cons_of_neg notBlankCode]

theorem splitTwo_flatMap (keeps : KeepsBlanks blank blankCode encode) (text : List α) :
    splitTwo blankCode (text.flatMap encode) = (splitTwo blank text).map (List.flatMap encode) := by
  have word :
      ∀ front : List α, Unbroken blank front → Unbroken blankCode (front.flatMap encode) := by
    intro front unbroken code isIn
    obtain ⟨char, isChar, ofChar⟩ := List.mem_flatMap.mp isIn
    exact (keeps.ofOther char (unbroken char isChar)).2 code ofChar
  have frontUnbroken : Unbroken blank (text.takeWhile fun char => !blank char) := by
    intro char isIn
    simpa using List.mem_takeWhile_imp isIn
  have parts := @List.takeWhile_append_dropWhile _ (!blank ·) text
  cases left : text.dropWhile fun char => !blank char with
  | nil =>
      rw [left, List.append_nil] at parts
      have unbroken : Unbroken blank text := by
        rw [← parts]
        exact frontUnbroken
      rw [splitTwo_of_unbroken unbroken, splitTwo_of_unbroken (word text unbroken)]
      rfl
  | cons separator rest =>
      have isBlank : blank separator = true := by
        have stops := List.head_dropWhile_not (!blank ·) (l := text) (by simp [left])
        simpa [left] using stops
      obtain ⟨code, isCode, blankToo⟩ := keeps.ofBlank separator isBlank
      rw [left] at parts
      rw [← parts, List.flatMap_append, List.flatMap_cons, isCode, List.singleton_append,
        splitTwo_append_cons (word _ frontUnbroken) blankToo,
        splitTwo_append_cons frontUnbroken isBlank]
      rfl

theorem trim_flatMap (keeps : KeepsBlanks blank blankCode encode) (text : List α) :
    trim blankCode (text.flatMap encode) = (trim blank text).flatMap encode := by
  have backwards := keeps.reversed.dropWhile_flatMap
  rw [trim, keeps.dropWhile_flatMap, List.reverse_flatMap]
  change
    (((text.dropWhile blank).reverse.flatMap
      fun char => (encode char).reverse).dropWhile blankCode).reverse = _
  rw [backwards, List.reverse_flatMap, trim]
  simp [Function.comp_def]

theorem trimmedParts_flatMap (keeps : KeepsBlanks blank blankCode encode) (text : List α) :
    trimmedParts blankCode (text.flatMap encode) =
      (trimmedParts blank text).map (List.flatMap encode) := by
  rw [trimmedParts, keeps.splitTwo_flatMap, trimmedParts, List.map_map, List.map_map]
  exact List.map_congr_left fun part _ => keeps.trim_flatMap part

end KeepsBlanks

end Vegar.Lib.Blanks

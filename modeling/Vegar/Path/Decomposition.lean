import Vegar.Path.Canonical

/-!
# Parent, name and components of a file path

`parent`, `name` and `components` of `FilePath` in `api/src/path.rs`.  All
three look for slashes in the text, from the end or from both ends.  On a text
that consists of names, each behind a slash, with or without one more at the
end, they find these names.
-/

namespace Vegar.Path

open Vegar.Lib

namespace FilePath

/-- `is_root`. -/
def isRoot (path : Str) : Bool := path == ['/']

/-- `strip_suffix` of a slash, where there is one. -/
def stripped (path : Str) : Str :=
  if isDir path then path.dropLast else path

def part (path : Str) (start stop : Nat) : Except (Fault AxError) Str :=
  match path.slice start stop with
  | some text => .ok text
  | none => .error .panicked

theorem part_eq_ok {path text : Str} {start stop : Nat}
    (sliced : path.slice start stop = some text) :
    part path start stop = .ok text := by
  rw [part, sliced]

/-- `parent`. -/
def parent (filePath : Str) : Except (Fault AxError) Str :=
  if isRoot filePath then .ok ['/']
  else
    let path := stripped filePath
    match path.rfind '/' with
    | none => .error (.err .NotFound)
    | some pos => part path 0 (pos + 1)

/-- `name`; it asks once more for a slash at the end. -/
def name (filePath : Str) : Except (Fault AxError) Str :=
  if isRoot filePath then .ok ['/']
  else
    let path := stripped filePath
    match path.rfind '/' with
    | none => .error (.err .NotFound)
    | some startPos =>
        let endPos := if isDir path then path.length - 1 else path.length
        part path (startPos + 1) endPos

/-- `components`. -/
def components (filePath : Str) : List Str := (filePath.trimMatches '/').splitOn '/'

structure Decomposes (path directory last : Str) : Prop where
  parentIs : parent path = .ok directory
  nameIs : name path = .ok last
  slashed : directory.getLast? = some '/'
  nonempty : last ≠ []
  slashFree : '/' ∉ last
  whole : directory ++ last = stripped path
  someComponent : components path ≠ []
  componentNames : ∀ part ∈ components path, part ≠ [] ∧ '/' ∉ part
  lastComponent : (components path).getLast? = some last
  allComponents : '/' :: ['/'].intercalate (components path) = stripped path

end FilePath

/-! ## Searches and slices -/

section Texts

variable {char : Char} {front back text : Str}

theorem rfind_eq_none (absent : char ∉ text) : text.rfind char = none := by
  induction text with
  | nil => rfl
  | cons first rest ih =>
      obtain ⟨notFirst, notLater⟩ := List.ne_and_not_mem_of_not_mem_cons absent
      rw [Str.rfind, ih notLater]
      exact if_neg (Ne.symm notFirst)

theorem rfind_append_cons (absent : char ∉ back) :
    Str.rfind char (front ++ char :: back) = some front.length := by
  induction front with
  | nil =>
      rw [List.nil_append, Str.rfind, rfind_eq_none absent]
      exact if_pos rfl
  | cons first rest ih =>
      rw [List.cons_append, Str.rfind, ih]
      rfl

theorem slice_front (front back : Str) : (front ++ back).slice 0 front.length = some front := by
  have inside : front.length ≤ (front ++ back).length := by simp
  rw [Str.slice, if_pos ⟨Nat.zero_le _, inside⟩, List.take_left]
  rfl

theorem slice_back (front back : Str) :
    (front ++ back).slice front.length (front ++ back).length =
      some back := by
  have inside : front.length ≤ (front ++ back).length := by simp
  rw [Str.slice, if_pos ⟨inside, Nat.le_refl _⟩, List.take_length, List.drop_left]

theorem dropWhile_eq_self (opens : text.head? ≠ some char) : text.dropWhile (· == char) = text := by
  cases text with
  | nil => rfl
  | cons first rest =>
      apply List.dropWhile_cons_of_neg
      intro same
      exact opens (congrArg some (eq_of_beq same))

theorem trimMatches_append (ofFront : ∀ other ∈ front, other = char)
    (ofBack : ∀ other ∈ back, other = char)
    (nonempty : text ≠ []) (opens : text.head? ≠ some char)
    (closes : text.getLast? ≠ some char) :
    (front ++ (text ++ back)).trimMatches char = text := by
  have stillOpens : (text ++ back).head? ≠ some char := by
    rw [List.head?_append_of_ne_nil _ nonempty]
    exact opens
  have reversedOpens : text.reverse.head? ≠ some char := by
    rw [List.head?_reverse]
    exact closes
  have frontDropped : (front ++ (text ++ back)).dropWhile (· == char) = text ++ back := by
    rw [List.dropWhile_append_of_pos, dropWhile_eq_self stillOpens]
    intro other member
    exact beq_iff_eq.mpr (ofFront other member)
  have backDropped : (text ++ back).reverse.dropWhile (· == char) = text.reverse := by
    rw [List.reverse_append, List.dropWhile_append_of_pos, dropWhile_eq_self reversedOpens]
    intro other member
    exact beq_iff_eq.mpr (ofBack other (List.mem_reverse.mp member))
  rw [Str.trimMatches, frontDropped, backDropped, List.reverse_reverse]

end Texts

/-! ## Paths made of names -/

section Names

variable {path last : Str} {before : List Str}

theorem getLast?_ne_of_not_mem {text : Str} (absent : '/' ∉ text) : text.getLast? ≠ some '/' :=
  fun isLast => absent (List.mem_of_getLast? isLast)

theorem joined_concat (before : List Str) (last : Str) :
    Separated.joined '/' (before ++ [last]) = (Separated.joined '/' before ++ ['/']) ++ last := by
  rw [Separated.joined_append, Separated.joined_singleton, List.append_assoc]
  rfl

variable (spells : Separated.Spells '/' (before ++ [last]) path)

include spells

theorem last_nonempty : last ≠ [] := spells.nonempty last (by simp)

theorem last_separated : '/' ∉ last := spells.separated last (by simp)

theorem isDir_joined_concat : isDir (Separated.joined '/' (before ++ [last])) = false := by
  rw [isDir, joined_concat, List.getLast?_append_of_ne_nil _ (last_nonempty spells)]
  exact beq_eq_false_iff_ne.mpr (getLast?_ne_of_not_mem (last_separated spells))

theorem stripped_of_spells : FilePath.stripped path = Separated.joined '/' (before ++ [last]) := by
  have isOpen := isDir_joined_concat spells
  rcases spells.spelling with isJoined | isSlashed
  · rw [isJoined, FilePath.stripped, isOpen]
    rfl
  · have isDirectory : isDir path = true := by
      rw [isDir, isSlashed, List.getLast?_concat]
      rfl
    rw [FilePath.stripped, isDirectory, isSlashed]
    exact List.dropLast_concat

theorem not_isRoot_of_spells : FilePath.isRoot path = false := by
  rw [FilePath.isRoot, beq_eq_false_iff_ne]
  rintro rfl
  have isNil : FilePath.stripped ['/'] = [] := rfl
  rw [stripped_of_spells spells, joined_concat] at isNil
  exact last_nonempty spells (List.append_eq_nil_iff.mp isNil).2

theorem rfind_stripped :
    (FilePath.stripped path).rfind '/' = some (Separated.joined '/' before).length := by
  rw [stripped_of_spells spells, joined_concat, List.append_assoc]
  exact rfind_append_cons (last_separated spells)

theorem parent_of_spells : FilePath.parent path = .ok (Separated.joined '/' before ++ ['/']) := by
  have sliced := slice_front (Separated.joined '/' before ++ ['/']) last
  rw [← joined_concat, ← stripped_of_spells spells, List.length_append] at sliced
  rw [FilePath.parent, not_isRoot_of_spells spells, if_neg nofun]
  simp only [rfind_stripped spells]
  exact FilePath.part_eq_ok sliced

theorem name_of_spells : FilePath.name path = .ok last := by
  have isOpen := isDir_joined_concat spells
  have sliced := slice_back (Separated.joined '/' before ++ ['/']) last
  rw [← joined_concat, ← stripped_of_spells spells, List.length_append] at sliced
  rw [← stripped_of_spells spells] at isOpen
  rw [FilePath.name, not_isRoot_of_spells spells, if_neg nofun]
  simp only [rfind_stripped spells, isOpen]
  exact FilePath.part_eq_ok sliced

theorem trimMatches_of_spells : path.trimMatches '/' = ['/'].intercalate (before ++ [last]) := by
  have someName : before ++ [last] ≠ [] := by simp
  have isJoined := @Separated.joined_eq_cons_intercalate _ '/' _ someName
  have isOpen := isDir_joined_concat spells
  have spelling := spells.spelling
  rw [isJoined] at isOpen spelling
  generalize ['/'].intercalate (before ++ [last]) = text at isOpen spelling ⊢
  obtain ⟨back, ofBack, isPath⟩ :
      ∃ back : Str, (∀ other ∈ back, other = '/') ∧ path = ['/'] ++ (text ++ back) := by
    rcases spelling with isPath | isPath
    · refine ⟨[], List.forall_mem_nil _, ?_⟩
      rw [List.append_nil]
      exact isPath
    · exact ⟨['/'], fun other => List.mem_singleton.mp, isPath⟩
  have nonempty : text ≠ [] := by
    rintro rfl
    cases isOpen
  have closes : text.getLast? ≠ some '/' := by
    rw [isDir, List.getLast?_cons_of_ne_nil nonempty] at isOpen
    exact beq_eq_false_iff_ne.mp isOpen
  have opens : text.head? ≠ some '/' := by
    intro isFirst
    obtain ⟨rest, isText⟩ := List.head?_eq_some_iff.mp isFirst
    have someChar : path ≠ [] := by
      rw [isPath]
      exact List.cons_ne_nil _ _
    have single := (spells.normal someChar).single
    rw [isPath, isText] at single
    have impossible := (List.isChain_cons_cons.mp single).1
    exact impossible.elim (absurd rfl) (absurd rfl)
  rw [isPath]
  exact trimMatches_append (fun other => List.mem_singleton.mp) ofBack nonempty opens closes

theorem components_of_spells : FilePath.components path = before ++ [last] := by
  rw [FilePath.components, trimMatches_of_spells spells]
  exact List.splitOn_intercalate '/' spells.separated (by simp)

theorem decomposes_of_spells :
    FilePath.Decomposes path (Separated.joined '/' before ++ ['/']) last where
  parentIs := parent_of_spells spells
  nameIs := name_of_spells spells
  slashed := List.getLast?_concat
  nonempty := last_nonempty spells
  slashFree := last_separated spells
  whole := by rw [stripped_of_spells spells, joined_concat]
  someComponent := by
    rw [components_of_spells spells]
    exact List.concat_ne_nil last before
  componentNames := by
    rw [components_of_spells spells]
    intro part member
    exact ⟨spells.nonempty part member, spells.separated part member⟩
  lastComponent := by
    rw [components_of_spells spells]
    exact List.getLast?_concat
  allComponents := by
    rw [components_of_spells spells, stripped_of_spells spells]
    exact (Separated.joined_eq_cons_intercalate (by simp)).symm

end Names

theorem exists_spells_concat {path : Str} (normal : Separated.Normal '/' path)
    (notRoot : FilePath.isRoot path = false) :
    ∃ before last, Separated.Spells '/' (before ++ [last]) path := by
  obtain ⟨names, spells⟩ := normal.exists_spells
  rcases List.eq_nil_or_concat' names with rfl | ⟨before, last, rfl⟩
  · rcases spells.spelling with rfl | rfl
    · cases normal.starts
    · cases notRoot
  · exact ⟨before, last, spells⟩

/-- Without links, `parent`, `name` and `components` of every file path but
the root agree on one decomposition. -/
theorem filePath_decomposes {FsState : Type} (crates : PathCrates FsState)
    (manager : LinkManager FsState)
    (canonicalizes :
      ∀ path canonical, crates.canonicalize manager.fs path = .ok canonical →
        Separated.Normal '/' canonical)
    (noLinks : ∀ name, manager.links.lookup name = none)
    (path filePath : Str)
    (made : FilePath.new crates manager path = .ok filePath)
    (notRoot : FilePath.isRoot filePath = false) :
    ∃ parent name, FilePath.Decomposes filePath parent name := by
  obtain ⟨name, isResolved, named⟩ := map_eq_ok made
  obtain ⟨canonical, found, isName⟩ := canonicalName_eq_ok named
  have isFilePath : filePath = withSlash path canonical.trim := by
    rw [isResolved, ← isName]
    exact Redirect.resolve_of_none (noLinks name)
  have normal : Separated.Normal '/' filePath := by
    rw [isFilePath]
    exact normal_withSlash_trim (canonicalizes path canonical found) path
  obtain ⟨before, last, spells⟩ := exists_spells_concat normal notRoot
  exact ⟨_, last, decomposes_of_spells spells⟩

/-- `a/../b/` in `/d`. -/
theorem filePath_decomposes_relative :
    FilePath.new canonicalCrates unusedManager (Str.lit "a/../b/") = .ok (Str.lit "/d/b/") ∧
    ∃ parent name, FilePath.Decomposes (Str.lit "/d/b/") parent name := by
  have made :
      FilePath.new canonicalCrates unusedManager (Str.lit "a/../b/") = .ok (Str.lit "/d/b/") := by
    decide +kernel
  refine ⟨made, ?_⟩
  apply filePath_decomposes canonicalCrates unusedManager _ (fun _ => rfl) _ _ made (by decide)
  intro path canonical found
  rw [← Except.ok.inj found]
  exact canonicalForm_normal (Str.lit "/d") path

end Vegar.Path

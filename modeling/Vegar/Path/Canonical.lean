import Mathlib.Data.List.DropRight
import Vegar.Lib.Resolved
import Vegar.Lib.Separated
import Vegar.Path.Linkat

/-!
# The names of file paths

A canonical path is the root or the names that are left when `.`, `..` and
empty components are resolved, each behind a slash.  `FilePath::new` takes
the white space off its end.
-/

namespace Vegar.Path

open Vegar.Lib

/-! ## Names with a slash -/

def withSlash (path name : Str) : Str :=
  if isDir path && !isDir name then name ++ ['/'] else name

theorem length_withSlash (path name : Str) :
    (withSlash path name).length = name.length + (isDir path && !isDir name).toNat := by
  unfold withSlash
  cases isDir path && !isDir name with
  | false => rfl
  | true => exact List.length_append

def EndsInSpace (text : Str) : Prop :=
  ∃ last, text.getLast? = some last ∧ Str.isWhitespace last = true

section Trimming

variable {path : Str}

theorem trim_eq_rdropWhile (starts : path.head? = some '/') :
    path.trim = path.rdropWhile Str.isWhitespace := by
  obtain ⟨rest, rfl⟩ := List.head?_eq_some_iff.mp starts
  rfl

theorem trim_isPrefix (starts : path.head? = some '/') :
    path.trim <+: path ∧ path.trim.head? = some '/' := by
  have within : path.trim <+: path := by
    rw [trim_eq_rdropWhile starts]
    exact List.rdropWhile_prefix _ _
  refine ⟨within, ?_⟩
  obtain ⟨rest, rfl⟩ := List.head?_eq_some_iff.mp starts
  cases isTrim : Str.trim ('/' :: rest) with
  | nil =>
      rw [trim_eq_rdropWhile starts, List.rdropWhile_eq_nil_iff] at isTrim
      exact absurd (isTrim '/' List.mem_cons_self) (by decide)
  | cons kept others =>
      rw [isTrim] at within
      rw [(List.cons_prefix_cons.mp within).1]
      rfl

theorem trim_eq_self_iff (starts : path.head? = some '/') :
    path.trim = path ↔ ¬ EndsInSpace path := by
  have nonempty : path ≠ [] := by
    rintro rfl
    cases starts
  rw [trim_eq_rdropWhile starts, List.rdropWhile_eq_self_iff]
  unfold EndsInSpace
  rw [List.getLast?_eq_some_getLast nonempty]
  constructor
  · rintro visible ⟨last, isLast, space⟩
    obtain rfl := Option.some.inj isLast
    exact visible nonempty space
  · intro visible _ space
    exact visible ⟨_, rfl, space⟩

theorem length_trim_lt (starts : path.head? = some '/') (space : EndsInSpace path) :
    path.trim.length < path.length := by
  obtain ⟨within, -⟩ := trim_isPrefix starts
  have different : path.trim ≠ path := fun same => (trim_eq_self_iff starts).mp same space
  refine Nat.lt_of_le_of_ne within.length_le ?_
  exact fun same => different (within.eq_of_length same)

end Trimming

theorem canonicalName_of_absolute {FsState : Type} {crates : PathCrates FsState} {fs : FsState}
    {path canonical : Str}
    (found : crates.canonicalize fs path = .ok canonical)
    (absolute : canonical.head? = some '/') :
    FilePath.canonicalName crates fs path = .ok (withSlash path canonical.trim) := by
  have starts : (withSlash path canonical.trim).head? = some '/' := by
    obtain ⟨-, trimmed⟩ := trim_isPrefix absolute
    unfold withSlash
    split
    · rw [List.head?_append, trimmed]
      rfl
    · exact trimmed
  rw [FilePath.canonicalName, found]
  exact if_pos starts

theorem canonicalName_eq_ok {FsState : Type} {crates : PathCrates FsState} {fs : FsState}
    {path name : Str}
    (named : FilePath.canonicalName crates fs path = .ok name) :
    ∃ canonical, crates.canonicalize fs path = .ok canonical ∧
      name = withSlash path canonical.trim := by
  unfold FilePath.canonicalName at named
  cases found : crates.canonicalize fs path with
  | error error =>
      rw [found] at named
      cases named
  | ok canonical =>
      refine ⟨canonical, rfl, ?_⟩
      rw [found] at named
      change
        (if (withSlash path canonical.trim).head? = some '/' then
          Except.ok (withSlash path canonical.trim)
        else .error Fault.panicked) = _ at named
      by_cases absolute : (withSlash path canonical.trim).head? = some '/'
      · rw [if_pos absolute] at named
        exact (Except.ok.inj named).symm
      · rw [if_neg absolute] at named
        cases named

theorem normal_withSlash_trim
    {canonical : Str} (normal : Separated.Normal '/' canonical) (path : Str) :
    Separated.Normal '/' (withSlash path canonical.trim) := by
  obtain ⟨within, starts⟩ := trim_isPrefix normal.starts
  have trimmed := normal.of_isPrefix starts within
  unfold withSlash
  split
  · next slashed =>
      have isOpen : canonical.trim.getLast? ≠ some '/' := by
        simpa [isDir] using (Bool.and_eq_true_iff.mp slashed).2
      exact trimmed.append_sep isOpen
  · exact trimmed

/-! ## Canonical forms -/

/-- `.` and `..`. -/
def walkNames (stack names : List Str) : List Str := Resolved.walk ['.'] ['.', '.'] stack names

def namesOf (cwd path : Str) : List Str :=
  let start :=
    if path.head? = some '/' then []
    else walkNames [] (Separated.components '/' cwd)
  walkNames start (Separated.components '/' path)

def rooted (names : List Str) : Str :=
  if names = [] then ['/'] else Separated.joined '/' names

def canonicalForm (cwd path : Str) : Str := rooted (namesOf cwd path)

/-- The name a `FilePath` should have. -/
def keptName (cwd path : Str) : Str := withSlash path (canonicalForm cwd path)

section Forms

variable {cwd path : Str}

theorem namesOf_mem {name : Str} (member : name ∈ namesOf cwd path) :
    (name ≠ [] ∧ '/' ∉ name) ∧ name ≠ ['.'] ∧ name ≠ ['.', '.'] := by
  rcases Resolved.mem_walk member with onStack | ⟨component, plain⟩
  · split at onStack
    · cases onStack
    · rcases Resolved.mem_walk onStack with impossible | ⟨component, plain⟩
      · cases impossible
      · exact ⟨Separated.name_of_mem_components component, plain⟩
  · exact ⟨Separated.name_of_mem_components component, plain⟩

theorem canonicalForm_spells (cwd path : Str) :
    Separated.Spells '/' (namesOf cwd path) (canonicalForm cwd path) where
  nonempty name member := (namesOf_mem member).1.1
  separated name member := (namesOf_mem member).1.2
  spelling := by
    unfold canonicalForm rooted
    split
    · next isRoot =>
        rw [isRoot]
        exact .inr rfl
    · exact .inl rfl

theorem canonicalForm_absolute (cwd path : Str) : (canonicalForm cwd path).head? = some '/' := by
  unfold canonicalForm rooted
  cases namesOf cwd path with
  | nil => rfl
  | cons name rest => rfl

theorem canonicalForm_normal (cwd path : Str) : Separated.Normal '/' (canonicalForm cwd path) := by
  apply (canonicalForm_spells cwd path).normal
  intro isNil
  have absolute := canonicalForm_absolute cwd path
  rw [isNil] at absolute
  cases absolute

theorem canonicalForm_congr {other : Str} (same : namesOf cwd path = namesOf cwd other) :
    canonicalForm cwd path = canonicalForm cwd other :=
  congrArg rooted same

theorem components_withSlash (path name : Str) :
    Separated.components '/' (withSlash path name) =
      Separated.components '/' name := by
  unfold withSlash
  split
  · exact Separated.components_append_sep name
  · rfl

theorem components_keptName (cwd path : Str) :
    Separated.components '/' (keptName cwd path) = namesOf cwd path := by
  rw [keptName, components_withSlash, (canonicalForm_spells cwd path).components_eq]

theorem withSlash_trim_eq_iff {canonical : Str} (absolute : canonical.head? = some '/') :
    withSlash path canonical.trim = withSlash path canonical ↔ ¬ EndsInSpace canonical := by
  constructor
  · intro same space
    have shorter := length_trim_lt absolute space
    have noSlash : isDir canonical = false := by
      obtain ⟨last, isLast, isSpace⟩ := space
      rw [isDir, isLast, beq_eq_false_iff_ne]
      rintro ⟨⟩
      revert isSpace
      decide
    have lengths := congrArg List.length same
    rw [length_withSlash, length_withSlash, noSlash] at lengths
    have noLonger : (isDir path && !isDir canonical.trim).toNat ≤ (isDir path && !false).toNat := by
      cases isDir path <;> cases isDir canonical.trim <;> decide
    omega
  · intro visible
    rw [(trim_eq_self_iff absolute).mpr visible]

theorem walkNames_x (names : List Str) : walkNames names [['x']] = names ++ [['x']] := by
  apply Resolved.walk_of_plain
  intro name member
  rw [List.mem_singleton.mp member]
  decide

theorem not_endsInSpace_of_names
    {names : List Str} (isNames : namesOf cwd path = names ++ [['x']]) :
    ¬ EndsInSpace (canonicalForm cwd path) := by
  have isForm : canonicalForm cwd path = Separated.joined '/' names ++ ['/', 'x'] := by
    rw [canonicalForm, rooted, isNames, if_neg (by simp), Separated.joined_append]
    rfl
  rintro ⟨last, isLast, space⟩
  rw [isForm, List.getLast?_append_of_ne_nil _ (List.cons_ne_nil _ _)] at isLast
  obtain rfl := Option.some.inj isLast
  revert space
  decide

/-! ## The current directory -/

theorem namesOf_nil (cwd : Str) : namesOf cwd [] = walkNames [] (Separated.components '/' cwd) := by
  unfold namesOf
  rw [Separated.components_nil, List.head?_nil, if_neg nofun]
  rfl

theorem components_joined (base path : Str) :
    Separated.components '/' (FilePath.joined base path) =
      Separated.components '/' base ++ Separated.components '/' path := by
  unfold FilePath.joined
  split
  · next slashed =>
      have isLast : base.getLast? = some '/' := by
        simpa [isDir] using slashed
      obtain ⟨front, rfl⟩ := List.getLast?_eq_some_iff.mp isLast
      rw [List.append_assoc, List.singleton_append,
        Separated.components_append_cons, Separated.components_append_sep]
  · rw [List.append_assoc, List.singleton_append, Separated.components_append_cons]

theorem isDir_joined (base : Str) (nonempty : path ≠ []) :
    isDir (FilePath.joined base path) = isDir path := by
  rw [isDir, isDir, FilePath.joined, List.getLast?_append_of_ne_nil _ nonempty]

theorem head?_joined {base : Str} (absolute : base.head? = some '/') :
    (FilePath.joined base path).head? = some '/' := by
  unfold FilePath.joined
  split
  · rw [List.head?_append, absolute]
    rfl
  · rw [List.head?_append, List.head?_append, absolute]
    rfl

theorem namesOf_joined {base : Str} (absolute : base.head? = some '/') :
    namesOf cwd (FilePath.joined base path) =
      walkNames (walkNames [] (Separated.components '/' base)) (Separated.components '/' path) := by
  unfold namesOf
  rw [if_pos (head?_joined absolute), components_joined]
  exact Resolved.walk_append _ _

theorem namesOf_joined_cwd (relative : path.head? ≠ some '/') :
    namesOf cwd (FilePath.joined (canonicalForm cwd []) path) =
      namesOf cwd path := by
  have plain : Resolved.Plain ['.'] ['.', '.'] (namesOf cwd []) :=
    fun name member => (namesOf_mem member).2
  have fixed : walkNames [] (namesOf cwd []) = namesOf cwd [] := Resolved.walk_of_plain plain
  rw [namesOf_joined (canonicalForm_absolute cwd []),
    (canonicalForm_spells cwd []).components_eq, fixed, namesOf_nil]
  unfold namesOf
  rw [if_neg relative]

end Forms

theorem canonicalForm_eq_joined {cwd path : Str} (space : EndsInSpace (canonicalForm cwd path)) :
    canonicalForm cwd path = Separated.joined '/' (namesOf cwd path) := by
  rcases (canonicalForm_spells cwd path).spelling with isJoined | isSlashed
  · exact isJoined
  · obtain ⟨last, isLast, isSpace⟩ := space
    rw [isSlashed, List.getLast?_concat] at isLast
    obtain rfl := Option.some.inj isLast
    exact absurd isSpace (by decide)

theorem walkNames_trim_ne {cwd path : Str} (space : EndsInSpace (canonicalForm cwd path)) :
    walkNames [] (Separated.components '/' (canonicalForm cwd path).trim) ≠
      namesOf cwd path := by
  have absolute := canonicalForm_absolute cwd path
  obtain ⟨-, trimmedAbsolute⟩ := trim_isPrefix absolute
  have shorter := length_trim_lt absolute space
  have components := Separated.length_joined_components_le trimmedAbsolute
  have walked := @Resolved.length_flatMap_walk_le _ _ ['.'] ['.', '.'] []
      (Separated.components '/' (canonicalForm cwd path).trim) _
      fun name => '/' :: name
  change (Separated.joined '/' (walkNames [] _)).length ≤
    0 + (Separated.joined '/' _).length at walked
  have whole := congrArg List.length (canonicalForm_eq_joined space)
  intro same
  rw [← same] at whole
  omega

/-! ## File paths -/

section Calls

variable {FsState : Type} {crates : PathCrates FsState}
  {manager : LinkManager FsState} {cwd path : Str}
  (canonicalizes : ∀ path, crates.canonicalize manager.fs path = .ok (canonicalForm cwd path))
  (noLinks : ∀ name, manager.links.lookup name = none)

include canonicalizes noLinks

theorem new_eq (path : Str) :
    FilePath.new crates manager path = .ok (withSlash path (canonicalForm cwd path).trim) := by
  have named := canonicalName_of_absolute (canonicalizes path) (canonicalForm_absolute cwd path)
  rw [FilePath.new, named]
  exact congrArg Except.ok (Redirect.resolve_of_none (noLinks _))

theorem new_eq_keptName_iff (path : Str) :
    FilePath.new crates manager path = .ok (keptName cwd path) ↔
      ¬ EndsInSpace (canonicalForm cwd path) := by
  rw [new_eq canonicalizes noLinks, Except.ok.injEq, keptName]
  exact withSlash_trim_eq_iff (canonicalForm_absolute cwd path)

theorem handleFilePath_relative
    (fds : FdPaths) (nonempty : path ≠ []) (relative : path.head? ≠ some '/') :
    handleFilePath crates fds manager atFdcwd path =
      raised crates
        (FilePath.new crates manager (FilePath.joined (canonicalForm cwd []).trim path)) := by
  have notEmpty : path.isEmpty = false := by
    rw [List.isEmpty_eq_false_iff]
    exact nonempty
  have base : basePath crates fds manager atFdcwd = .ok (canonicalForm cwd []).trim := by
    rw [basePath, if_pos rfl, new_eq canonicalizes noLinks]
    rfl
  rw [handleFilePath, if_neg relative, notEmpty, base]
  rfl

theorem handleFilePath_eq_new (visible : ¬ EndsInSpace (canonicalForm cwd [])) (fds : FdPaths)
    (nonempty : path ≠ []) (relative : path.head? ≠ some '/') :
    handleFilePath crates fds manager atFdcwd path =
      raised crates (FilePath.new crates manager path) := by
  have kept := (trim_eq_self_iff (canonicalForm_absolute cwd [])).mpr visible
  have sameForm :
      canonicalForm cwd (FilePath.joined (canonicalForm cwd []) path) =
        canonicalForm cwd path :=
    canonicalForm_congr (namesOf_joined_cwd relative)
  rw [handleFilePath_relative canonicalizes noLinks fds nonempty relative,
    kept, new_eq canonicalizes noLinks, new_eq canonicalizes noLinks, sameForm]
  unfold withSlash
  rw [isDir_joined _ nonempty]

theorem namesOf_eq_of_new_eq {other : Str} (visible : ¬ EndsInSpace (canonicalForm cwd path))
    (otherVisible : ¬ EndsInSpace (canonicalForm cwd other))
    (same : FilePath.new crates manager path = FilePath.new crates manager other) :
    namesOf cwd path = namesOf cwd other := by
  rw [(new_eq_keptName_iff canonicalizes noLinks path).mpr visible,
    (new_eq_keptName_iff canonicalizes noLinks other).mpr otherVisible]
    at same
  rw [← components_keptName, ← components_keptName, Except.ok.inj same]

theorem handleFilePath_ne_new (space : EndsInSpace (canonicalForm cwd [])) (fds : FdPaths) :
    handleFilePath crates fds manager atFdcwd ['x'] ≠
      raised crates (FilePath.new crates manager ['x']) := by
  obtain ⟨-, trimmedAbsolute⟩ := trim_isPrefix (canonicalForm_absolute cwd [])
  have isX : Separated.components '/' ['x'] = [['x']] := Separated.components_name nofun (by decide)
  have handledNames :
      namesOf cwd (FilePath.joined (canonicalForm cwd []).trim ['x']) =
        walkNames [] (Separated.components '/' (canonicalForm cwd []).trim) ++ [['x']] := by
    rw [namesOf_joined trimmedAbsolute, isX, walkNames_x]
  have newNames : namesOf cwd ['x'] = namesOf cwd [] ++ [['x']] := by
    rw [namesOf_nil, namesOf, isX, if_neg (by decide)]
    exact walkNames_x _
  intro same
  rw [handleFilePath_relative canonicalizes noLinks fds (List.cons_ne_nil _ _) (by decide),
    new_eq canonicalizes noLinks, new_eq canonicalizes noLinks] at same
  have sameNew := Except.ok.inj same
  rw [← Except.ok.injEq, ← new_eq canonicalizes noLinks, ← new_eq canonicalizes noLinks] at sameNew
  have sameNames :=
    namesOf_eq_of_new_eq canonicalizes noLinks (not_endsInSpace_of_names handledNames)
      (not_endsInSpace_of_names newNames) sameNew
  rw [handledNames, newNames] at sameNames
  exact walkNames_trim_ne space (List.append_cancel_right sameNames)

end Calls

/-- Without links, for every path and current directory: `FilePath::new` keeps
the name of a path exactly if its canonical form does not end in white space;
`handle_file_path` from the current directory agrees with `FilePath::new` on
all relative paths exactly if the current directory does not end in white
space; and paths with different canonical forms, neither of them ending in
white space, have different file paths. -/
theorem filePath_keeps_name_iff {FsState : Type} (crates : PathCrates FsState)
    (manager : LinkManager FsState) (cwd : Str)
    (canonicalizes : ∀ path, crates.canonicalize manager.fs path = .ok (canonicalForm cwd path))
    (noLinks : ∀ name, manager.links.lookup name = none) :
    (∀ path,
      FilePath.new crates manager path = .ok (keptName cwd path) ↔
        ¬ EndsInSpace (canonicalForm cwd path)) ∧
    (∀ fds,
      (∀ path, path ≠ [] → path.head? ≠ some '/' →
          handleFilePath crates fds manager atFdcwd path =
            raised crates (FilePath.new crates manager path)) ↔
        ¬ EndsInSpace (canonicalForm cwd [])) ∧
    ∀ path other, ¬ EndsInSpace (canonicalForm cwd path) → ¬ EndsInSpace (canonicalForm cwd other) →
      canonicalForm cwd path ≠ canonicalForm cwd other →
        FilePath.new crates manager path ≠
          FilePath.new crates manager other := by
  refine ⟨new_eq_keptName_iff canonicalizes noLinks, ?_, ?_⟩
  · intro fds
    constructor
    · intro agree space
      exact handleFilePath_ne_new canonicalizes noLinks space fds (agree ['x'] nofun (by decide))
    · intro visible path nonempty relative
      exact handleFilePath_eq_new canonicalizes noLinks visible fds nonempty relative
  · intro path other visible otherVisible different same
    apply different
    exact canonicalForm_congr (namesOf_eq_of_new_eq canonicalizes noLinks visible otherVisible same)

/-- The crates over a list of paths, in the directory `/d`. -/
def canonicalCrates : PathCrates (List Str) :=
  { listCrates with
    canonicalize := fun _ path => .ok (canonicalForm (Str.lit "/d") path) }

/-- `a/../b/` in `/d`. -/
theorem filePath_keeps_name_iff_relative :
    keptName (Str.lit "/d") (Str.lit "a/../b/") = Str.lit "/d/b/" ∧
    FilePath.new canonicalCrates unusedManager (Str.lit "a/../b/") =
      .ok (keptName (Str.lit "/d") (Str.lit "a/../b/")) ∧
    handleFilePath canonicalCrates noFds unusedManager atFdcwd (Str.lit "a/../b/") =
      raised canonicalCrates (FilePath.new canonicalCrates unusedManager (Str.lit "a/../b/")) := by
  obtain ⟨keeps, agrees, -⟩ := filePath_keeps_name_iff canonicalCrates unusedManager (Str.lit "/d")
      (fun _ => rfl) (fun _ => rfl)
  have isForm :
      canonicalForm (Str.lit "/d") (Str.lit "a/../b/") =
        Str.lit "/d/b" := by
    decide +kernel
  have isCwd : canonicalForm (Str.lit "/d") [] = Str.lit "/d" := by
    decide +kernel
  refine ⟨by decide +kernel, (keeps _).mpr ?_, (agrees noFds).mpr ?_ _ ?_ ?_⟩
  · rw [isForm]
    rintro ⟨last, isLast, space⟩
    obtain rfl := Option.some.inj isLast
    revert space
    decide
  · rw [isCwd]
    rintro ⟨last, isLast, space⟩
    obtain rfl := Option.some.inj isLast
    revert space
    decide
  · exact List.cons_ne_nil _ _
  · decide

/-- The paths `/a` and `/a ` have different canonical forms and the same file
path. -/
theorem filePath_drops_space :
    FilePath.new canonicalCrates unusedManager (Str.lit "/a ") = .ok (Str.lit "/a") ∧
      FilePath.new canonicalCrates unusedManager (Str.lit "/a") = .ok (Str.lit "/a") ∧
      canonicalForm (Str.lit "/d") (Str.lit "/a ") = Str.lit "/a " := by
  decide +kernel

end Vegar.Path

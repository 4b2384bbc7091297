import Vegar.Path.FilePath

/-!
# Making and removing links by name

Two consequences of resolving every path first.  `unlinkat` never sees the
name of a link, so it cannot undo a `linkat`.  `linkat` on a name that is in
use makes an entry for what the name stands for, and entries can then lead
from one to another.
-/

namespace Vegar.Path

open Vegar.Lib

/-! ## Undoing a link -/

/-- `axfs::api::metadata` fails on a path where there is nothing. -/
def PathCrates.MetadataFindsExisting {FsState : Type} (crates : PathCrates FsState) : Prop :=
  ∀ fs path directory, crates.metadataIsDir fs path = .ok directory →
    crates.absolutePathExists fs path = true

def NamesNothing {FsState : Type} (crates : PathCrates FsState) (fds : FdPaths)
    (manager : LinkManager FsState) (dirfd : Int) (path : Str) : Prop :=
  ∀ name, handledName crates fds manager dirfd path = .ok name →
    manager.links.lookup name = none ∧ crates.absolutePathExists manager.fs name = false

/-- Unlinking a path in the state `linked` succeeds, removes the entry of the
path and nothing else, and leads back to the state `manager`. -/
def UnlinkLeadsBack {FsState : Type} (crates : PathCrates FsState) (fds : FdPaths)
    (manager linked : LinkManager FsState) (dirfd : Int) (path : Str) :
    Prop :=
  let unlink := sysUnlinkat crates fds linked dirfd (.ok path) 0
  unlink.1 = .ok 0 ∧
    (∃ name, handledName crates fds manager dirfd path = .ok name ∧
      unlink.2.links = linked.links.erase name) ∧
    unlink.2.removeCall = none ∧
    unlink.2.links = manager.links ∧
    unlink.2.refCounts = manager.refCounts ∧
    unlink.2.fs = manager.fs

section Undo

variable {FsState : Type} {crates : PathCrates FsState} {manager : LinkManager FsState}

theorem sysLinkat_fs {fds : FdPaths} {oldDirfd newDirfd : Int}
    {oldPath newPath : Except (Fault LinuxError) Str} {flags : Int}
    {name target : Str}
    (made : linkMade crates fds manager oldDirfd oldPath newDirfd newPath = some (name, target))
    (noEntry : manager.links.lookup name = none) :
    (sysLinkat crates fds manager oldDirfd oldPath newDirfd newPath flags).2.fs = manager.fs := by
  obtain ⟨operands, there, directory⟩ := linkMade_eq_some made
  rw [sysLinkat_state, operands]
  simp [LinkManager.createLink, there, directory,
    LinkManager.atomicLinkUpdate, noEntry, LinkManager.addLink]

theorem linkMade_name {fds : FdPaths} {oldDirfd newDirfd : Int}
    {oldPath : Except (Fault LinuxError) Str} {path name target : Str}
    (nothing : NamesNothing crates fds manager newDirfd path)
    (made :
      linkMade crates fds manager oldDirfd oldPath newDirfd (.ok path) = some (name, target)) :
    handledName crates fds manager newDirfd path = .ok name := by
  obtain ⟨operands, -, -⟩ := linkMade_eq_some made
  obtain ⟨-, text, isText, handled⟩ := linkOperands_eq_ok operands
  obtain rfl := Except.ok.inj isText
  obtain ⟨looked, named, resolved⟩ := handleFilePath_eq_ok handled
  have itself : manager.realPath looked = looked :=
    Redirect.resolve_of_none (nothing looked named).1
  rw [named, ← resolved, itself]

end Undo

/-- Unlinking the new name right after a successful `linkat` never leads
back: the path is resolved to the target, so the entry stays. -/
theorem unlinkat_never_undoes_linkat {FsState : Type} (crates : PathCrates FsState)
    (documented : crates.MetadataFindsExisting) (fds : FdPaths)
    (manager : LinkManager FsState) (oldDirfd newDirfd : Int)
    (old new : Str) (flags : Int)
    (nothing : NamesNothing crates fds manager newDirfd new)
    (succeeded :
      (sysLinkat crates fds manager oldDirfd (.ok old) newDirfd (.ok new) flags).1 = .ok 0) :
    ¬ UnlinkLeadsBack crates fds manager
      (sysLinkat crates fds manager oldDirfd (.ok old) newDirfd (.ok new)
        flags).2 newDirfd new := by
  rintro ⟨unlinked, -, -, sameLinks, -, -⟩
  obtain ⟨⟨name, target⟩, made⟩ := linkMade_of_sysLinkat_ok succeeded
  have named := linkMade_name nothing made
  obtain ⟨noEntry, noFile⟩ := nothing name named
  have entries := @sysLinkat_links _ crates manager fds oldDirfd (.ok old) newDirfd (.ok new) flags
  have files := @sysLinkat_fs _ crates manager fds _ _ _ _ flags _ _ made noEntry
  rw [made] at entries
  obtain ⟨resolved, -, known, state⟩ := sysUnlinkat_eq_ok (by decide) unlinked
  rw [state, LinkManager.removeLink_links, entries] at sameLinks
  have gone :
      ((manager.links.insert name target).erase resolved).lookup name =
        none := by
    rw [sameLinks, noEntry]
  have isName : name = resolved := by
    by_contra different
    rw [Finmap.lookup_erase_ne different, Finmap.lookup_insert] at gone
    cases gone
  rw [files, ← isName] at known
  rw [documented _ _ _ known] at noFile
  cases noFile

def listCrates : PathCrates (List Str) where
  toAxFs := listFs
  linuxError
    | .NotFound => .ENOENT
    | .InvalidInput => .EINVAL
    | _ => .other 0
  canonicalize _ path := .ok path
  metadataIsDir files path :=
    if files.contains path then .ok (isDir path) else .error .NotFound
  removeDir files path :=
    if files.contains path then (.ok (), files.erase path)
    else (.error .NotFound, files)

theorem listCrates_metadataFindsExisting :
    listCrates.MetadataFindsExisting := by
  intro files path directory known
  change
    (if files.contains path then Except.ok (isDir path)
      else .error AxError.NotFound) = _ at known
  by_cases there : files.contains path = true
  · exact there
  · rw [if_neg there] at known
    cases known

def noFds : FdPaths where
  filePath _ := .error .EBADF
  directoryPath _ := .error .EBADF

/-- The state after `linkat` from `/d/` to `/a`. -/
def afterLinkat : LinkManager (List Str) :=
  (sysLinkat listCrates noFds unusedManager atFdcwd (.ok (Str.lit "/d/"))
    atFdcwd (.ok (Str.lit "/a")) 0).2

theorem namesNothing_unused :
    NamesNothing listCrates noFds unusedManager atFdcwd (Str.lit "/a") := by
  intro name named
  have isA :
      handledName listCrates noFds unusedManager atFdcwd (Str.lit "/a") = .ok (Str.lit "/a") := by
    decide +kernel
  obtain rfl := Except.ok.inj (isA.symm.trans named)
  decide +kernel

theorem unlinkat_never_undoes_linkat_unused :
    (sysLinkat listCrates noFds unusedManager atFdcwd (.ok (Str.lit "/d/"))
      atFdcwd (.ok (Str.lit "/a")) 0).1 = .ok 0 ∧
    ¬ UnlinkLeadsBack listCrates noFds unusedManager afterLinkat atFdcwd (Str.lit "/a") := by
  have succeeded :
      (sysLinkat listCrates noFds unusedManager atFdcwd
        (.ok (Str.lit "/d/")) atFdcwd (.ok (Str.lit "/a")) 0).1 = .ok 0 := by
    decide +kernel
  exact ⟨succeeded,
      unlinkat_never_undoes_linkat listCrates
        listCrates_metadataFindsExisting noFds unusedManager atFdcwd atFdcwd
        (Str.lit "/d/") (Str.lit "/a") 0 namesNothing_unused succeeded⟩

/-- The link `/a` to the directory `/d/` cannot be removed: the call is
answered for the directory. -/
theorem unlinkat_of_link_isDir :
    NamesNothing listCrates noFds unusedManager atFdcwd (Str.lit "/a") ∧
    (sysLinkat listCrates noFds unusedManager atFdcwd (.ok (Str.lit "/d/"))
      atFdcwd (.ok (Str.lit "/a")) 0).1 = .ok 0 ∧
    (sysUnlinkat listCrates noFds afterLinkat atFdcwd
      (.ok (Str.lit "/a")) 0).1 = .error (.err .EISDIR) ∧
    (sysUnlinkat listCrates noFds afterLinkat atFdcwd
      (.ok (Str.lit "/a")) 0).2.links ≠ unusedManager.links ∧
    ¬ UnlinkLeadsBack listCrates noFds unusedManager afterLinkat atFdcwd (Str.lit "/a") := by
  have refused :
      (sysUnlinkat listCrates noFds afterLinkat atFdcwd
        (.ok (Str.lit "/a")) 0).1 = .error (.err .EISDIR) := by
    decide +kernel
  refine ⟨namesNothing_unused, by decide +kernel, refused, by decide +kernel, ?_⟩
  rintro ⟨unlinked, -⟩
  rw [refused] at unlinked
  cases unlinked

/-! ## Chains of links -/

inductive PathCall (FsState : Type) where
  | linkat (fds : FdPaths) (oldDirfd : Int) (oldPath : Except (Fault LinuxError) Str)
      (newDirfd : Int) (newPath : Except (Fault LinuxError) Str)
      (flags : Int)
  | unlinkat (fds : FdPaths) (dirfd : Int) (path : Except (Fault LinuxError) Str) (flags : Nat)
  | fsChange (fs : FsState)

/-- Calls of `sys_linkat` and `sys_unlinkat` from the empty table. -/
def pathMachine {FsState : Type} (crates : PathCrates FsState) :
    Machine (LinkManager FsState) (PathCall FsState) where
  start manager := manager.links = ∅ ∧ manager.refCounts = ∅
  next
    | manager, .linkat fds oldDirfd oldPath newDirfd newPath flags =>
        some (sysLinkat crates fds manager oldDirfd oldPath newDirfd newPath flags).2
    | manager, .unlinkat fds dirfd path flags =>
        some (sysUnlinkat crates fds manager dirfd path flags).2
    | manager, .fsChange fs => some { manager with fs := fs }

/-- A `linkat` makes no entry for a path that another entry leads to, unless
to that path itself. -/
def NewNameFree {FsState : Type} (crates : PathCrates FsState)
    (manager : LinkManager FsState) : PathCall FsState → Prop
  | .linkat fds oldDirfd oldPath newDirfd newPath _ =>
      ∀ name target,
        linkMade crates fds manager oldDirfd oldPath newDirfd newPath = some (name, target) →
        target = name ∨ ∀ other, other ≠ name → manager.links.lookup other ≠ some name
  | .unlinkat .. => True
  | .fsChange _ => True

section Chains

variable {FsState : Type} {crates : PathCrates FsState} {manager : LinkManager FsState}

theorem lookup_insert_eq_update (links : Links) (name target : Str) :
    (links.insert name target).lookup = Function.update links.lookup name (some target) := by
  funext asked
  by_cases same : asked = name
  · rw [same, Finmap.lookup_insert, Function.update_self]
  · rw [Finmap.lookup_insert_of_ne _ same, Function.update_of_ne same]

theorem linkMade_target {fds : FdPaths} {oldDirfd newDirfd : Int}
    {oldPath newPath : Except (Fault LinuxError) Str} {name target : Str}
    (made : linkMade crates fds manager oldDirfd oldPath newDirfd newPath = some (name, target)) :
    ∃ looked, manager.realPath looked = target := by
  obtain ⟨operands, -, -⟩ := linkMade_eq_some made
  obtain ⟨⟨text, -, handled⟩, -⟩ := linkOperands_eq_ok operands
  obtain ⟨looked, -, resolved⟩ := handleFilePath_eq_ok handled
  exact ⟨looked, resolved⟩

theorem flat_sysLinkat_iff (flat : Redirect.Flat manager.links.lookup)
    (fds : FdPaths) (oldDirfd : Int)
    (oldPath : Except (Fault LinuxError) Str) (newDirfd : Int)
    (newPath : Except (Fault LinuxError) Str) (flags : Int) :
    Redirect.Flat
        (sysLinkat crates fds manager oldDirfd oldPath newDirfd newPath flags).2.links.lookup ↔
      NewNameFree crates manager (.linkat fds oldDirfd oldPath newDirfd newPath flags) := by
  rw [sysLinkat_links, NewNameFree]
  cases made : linkMade crates fds manager oldDirfd oldPath newDirfd newPath with
  | none =>
      simp only [reduceCtorEq, false_implies, implies_true, iff_true]
      exact flat
  | some entry =>
      obtain ⟨name, target⟩ := entry
      obtain ⟨looked, resolved⟩ := linkMade_target made
      have settled : Redirect.Settled manager.links.lookup target := by
        rw [← resolved]
        exact flat.settled_resolve looked
      simp only [lookup_insert_eq_update, flat.update_iff settled]
      constructor
      · intro free asked askedTarget isEntry
        obtain ⟨rfl, rfl⟩ := Prod.mk.inj (Option.some.inj isEntry)
        exact free
      · intro free
        exact free name target rfl

theorem flat_of_reachable
    (reached : (pathMachine crates).ReachableWithin (NewNameFree crates) manager) :
    Redirect.Flat manager.links.lookup := by
  refine @Machine.ReachableWithin.invariant _ _ (pathMachine crates)
      (NewNameFree crates) (fun state => Redirect.Flat state.links.lookup)
      ?_ ?_ manager reached
  · rintro started ⟨noLinks, -⟩
    simpa only [noLinks, Finmap.lookup_empty] using Redirect.Flat.empty
  · intro source call target _ flat free stepped
    cases call with
    | linkat fds oldDirfd oldPath newDirfd newPath flags =>
        obtain rfl := Option.some.inj stepped
        exact (flat_sysLinkat_iff flat fds oldDirfd oldPath newDirfd newPath flags).mpr free
    | unlinkat fds dirfd path flags =>
        obtain rfl := Option.some.inj stepped
        exact flat.mono fun _ _ => lookup_of_sysUnlinkat
    | fsChange fs =>
        obtain rfl := Option.some.inj stepped
        exact flat

end Chains

/-- In every run whose new names are free, no target leads on to another
path, resolving twice is resolving once, and connected names give the same
`FilePath`. -/
theorem realPath_idempotent_of_names_free {FsState : Type} (crates : PathCrates FsState)
    (manager : LinkManager FsState)
    (reached : (pathMachine crates).ReachableWithin (NewNameFree crates) manager) :
    (∀ name target further, manager.links.lookup name = some target →
      manager.links.lookup target = some further → further = target) ∧
    (∀ path, manager.realPath (manager.realPath path) = manager.realPath path) ∧
    ∀ left right leftName rightName, FilePath.canonicalName crates manager.fs left = .ok leftName →
      FilePath.canonicalName crates manager.fs right = .ok rightName →
      Redirect.Connected manager.links.lookup leftName rightName →
      FilePath.new crates manager left =
        FilePath.new crates manager right := by
  have flat := flat_of_reachable reached
  refine ⟨fun name target further entry => flat name target entry further, flat.resolve_resolve, ?_⟩
  intro left right leftName rightName isLeft isRight connected
  rw [FilePath.new, FilePath.new, isLeft, isRight]
  exact congrArg Except.ok (flat.resolve_eq_of_connected connected)

def twoDirectories : LinkManager (List Str) where
  fs := [Str.lit "/d/", Str.lit "/e/"]
  links := ∅
  refCounts := ∅
  unlinked := ∅
  removeCall := none

/-- `linkat` between absolute paths. -/
def linkPaths (old new : String) : PathCall (List Str) :=
  .linkat noFds atFdcwd (.ok (Str.lit old)) atFdcwd (.ok (Str.lit new)) 0

/-- Linking `/a` to one directory and then to another. -/
theorem link_of_link_makes_chain :
    ∃ manager, (pathMachine listCrates).Reachable manager ∧
      manager.links.lookup (Str.lit "/a") = some (Str.lit "/d/") ∧
      manager.links.lookup (Str.lit "/d/") = some (Str.lit "/e/") ∧
      manager.realPath (manager.realPath (Str.lit "/a")) ≠ manager.realPath (Str.lit "/a") := by
  obtain ⟨manager, reached, observed⟩ :=
    @Machine.exists_reachable_of_exec _ _ (pathMachine listCrates)
      twoDirectories [linkPaths "/d/" "/a", linkPaths "/e/" "/a"]
      (fun state => decide
        (state.links.lookup (Str.lit "/a") = some (Str.lit "/d/") ∧
          state.links.lookup (Str.lit "/d/") = some (Str.lit "/e/") ∧
          state.realPath (state.realPath (Str.lit "/a")) ≠ state.realPath (Str.lit "/a")))
      ⟨rfl, rfl⟩ (by decide +kernel)
  exact ⟨manager, reached, of_decide_eq_true observed⟩

theorem realPath_idempotent_of_names_free_linked :
    ∃ manager, (pathMachine listCrates).ReachableWithin (NewNameFree listCrates) manager ∧
      manager.links.lookup (Str.lit "/a") = some (Str.lit "/d/") ∧
      ∀ path, manager.realPath (manager.realPath path) =
        manager.realPath path := by
  have free : NewNameFree listCrates twoDirectories (linkPaths "/d/" "/a") := by
    intro name target _
    right
    intro other _ entry
    change (∅ : Links).lookup other = _ at entry
    rw [Finmap.lookup_empty] at entry
    cases entry
  obtain ⟨manager, reached, observed⟩ :=
    @Machine.exists_reachableWithin_of_exec _ _ (pathMachine listCrates)
      (NewNameFree listCrates) twoDirectories [linkPaths "/d/" "/a"]
      (fun state => decide (state.links.lookup (Str.lit "/a") = some (Str.lit "/d/")))
      ⟨rfl, rfl⟩ ⟨free, fun _ _ => trivial⟩ (by decide +kernel)
  exact ⟨manager, reached, of_decide_eq_true observed,
      (realPath_idempotent_of_names_free listCrates manager reached).2.1⟩

end Vegar.Path

import Vegar.Lib.Redirect
import Vegar.Path.Hardlink

/-!
# File paths, `linkat` and `unlinkat`

`FilePath` and `handle_file_path` of `api/src/path.rs`, `sys_linkat` and
`sys_unlinkat` of `api/src/imp/fs/ctl.rs`.  Every path a call is given is
replaced by the target of its link before the call looks at it, so both calls
work on resolved names.
-/

namespace Vegar.Path

open Vegar.Lib

/-- The functions of `axfs::api` behind the path calls; `metadataIsDir` is
`metadata` followed by `is_dir`. -/
structure PathCrates (FsState : Type) extends AxFs FsState where
  linuxError : AxError → LinuxError
  canonicalize : FsState → Str → AxResult Str
  metadataIsDir : FsState → Str → AxResult Bool
  removeDir : FsState → Str → AxResult Unit × FsState

/-- The paths of the open descriptors: `File::from_fd` and
`Directory::from_fd`, followed by `path`. -/
structure FdPaths where
  filePath : Int → LinuxResult Str
  directoryPath : Int → LinuxResult Str

def atFdcwd : Int := -100

def atRemovedir : Nat := 0x200

/-- The conversion of `LinkError` to `AxError`. -/
def LinkError.toAxError : LinkError → AxError
  | .NotFound => .NotFound
  | .NotFile => .InvalidInput

/-- `real_path`. -/
def LinkManager.realPath {FsState : Type} (manager : LinkManager FsState) (path : Str) : Str :=
  Redirect.resolve manager.links.lookup path

section Calls

variable {FsState : Type} (crates : PathCrates FsState)

namespace FilePath

/-- `FilePath::new` up to the lookup of the link. -/
def canonicalName (fs : FsState) (path : Str) : Except (Fault AxError) Str :=
  match crates.canonicalize fs path with
  | .error _ => .error (.err .NotFound)
  | .ok canonical =>
      let newPath := canonical.trim
      let newPath :=
        if isDir path && !isDir newPath then newPath ++ ['/'] else newPath
      if newPath.head? = some '/' then .ok newPath else .error .panicked

/-- `FilePath::new`. -/
def new (manager : LinkManager FsState) (path : Str) : Except (Fault AxError) Str :=
  (canonicalName crates manager.fs path).map manager.realPath

/-- The text `join` hands to `FilePath::new`. -/
def joined (filePath path : Str) : Str :=
  (if isDir filePath then filePath else filePath ++ ['/']) ++ path

/-- `join`. -/
def join (manager : LinkManager FsState) (filePath path : Str) : Except (Fault AxError) Str :=
  new crates manager (joined filePath path)

end FilePath

/-- `?` on a result of `axfs`. -/
def raised {α : Type} (result : Except (Fault AxError) α) : Except (Fault LinuxError) α :=
  result.mapError (Fault.map crates.linuxError)

/-- `?` on a result of a descriptor lookup. -/
def ofLookup {α : Type} (result : LinuxResult α) : Except (Fault LinuxError) α :=
  result.mapError Fault.err

/-- The directory a relative path starts from in `handle_file_path`. -/
def basePath (fds : FdPaths) (manager : LinkManager FsState) (dirfd : Int) :
    Except (Fault LinuxError) Str :=
  if dirfd = atFdcwd then raised crates (FilePath.new crates manager [])
  else do
    let path ← ofLookup (fds.directoryPath dirfd)
    raised crates (FilePath.new crates manager path)

/-- `handle_file_path`. -/
def handleFilePath (fds : FdPaths) (manager : LinkManager FsState) (dirfd : Int)
    (path : Str) : Except (Fault LinuxError) Str :=
  if path.head? = some '/' then
    raised crates (FilePath.new crates manager path)
  else if path.isEmpty then do
    let path ← ofLookup (fds.filePath dirfd)
    raised crates (FilePath.new crates manager path)
  else do
    let base ← basePath crates fds manager dirfd
    raised crates (FilePath.join crates manager base path)

/-- The name `handle_file_path` looks up in the table of links last. -/
def handledName (fds : FdPaths) (manager : LinkManager FsState) (dirfd : Int)
    (path : Str) : Except (Fault LinuxError) Str :=
  if path.head? = some '/' then
    raised crates (FilePath.canonicalName crates manager.fs path)
  else if path.isEmpty then do
    let path ← ofLookup (fds.filePath dirfd)
    raised crates (FilePath.canonicalName crates manager.fs path)
  else do
    let base ← basePath crates fds manager dirfd
    raised crates (FilePath.canonicalName crates manager.fs (FilePath.joined base path))

/-- The two paths `sys_linkat` works on, the old one first. -/
def linkOperands (fds : FdPaths) (manager : LinkManager FsState)
    (oldDirfd : Int) (oldPath : Except (Fault LinuxError) Str)
    (newDirfd : Int) (newPath : Except (Fault LinuxError) Str) :
    Except (Fault LinuxError) (Str × Str) := do
  let oldPath ← oldPath
  let newPath ← newPath
  let oldPath ← handleFilePath crates fds manager oldDirfd oldPath
  let newPath ← handleFilePath crates fds manager newDirfd newPath
  return (oldPath, newPath)

/-- `sys_linkat`; the path arguments are what `get_as_str` returned for
them. -/
def sysLinkat (fds : FdPaths) (manager : LinkManager FsState)
    (oldDirfd : Int) (oldPath : Except (Fault LinuxError) Str)
    (newDirfd : Int) (newPath : Except (Fault LinuxError) Str)
    (_flags : Int) :
    Except (Fault LinuxError) Int × LinkManager FsState :=
  match linkOperands crates fds manager oldDirfd oldPath newDirfd newPath with
  | .error fault => (.error fault, manager)
  | .ok (oldPath, newPath) =>
      match manager.createLink crates.toAxFs newPath oldPath with
      | (.ok (), manager) => (.ok 0, manager)
      | (.error error, manager) =>
          (.error (.err (crates.linuxError error.toAxError)), manager)

/-- `sys_unlinkat`. -/
def sysUnlinkat (fds : FdPaths) (manager : LinkManager FsState) (dirfd : Int)
    (path : Except (Fault LinuxError) Str) (flags : Nat) :
    Except (Fault LinuxError) Int × LinkManager FsState :=
  match path >>= handleFilePath crates fds manager dirfd with
  | .error fault => (.error fault, manager)
  | .ok path =>
      if flags = atRemovedir then
        match crates.removeDir manager.fs path with
        | (.ok (), fs) => (.ok 0, { manager with fs := fs })
        | (.error error, fs) =>
            (.error (.err (crates.linuxError error)), { manager with fs := fs })
      else
        match crates.metadataIsDir manager.fs path with
        | .error error => (.error (.err (crates.linuxError error)), manager)
        | .ok true => (.error (.err .EISDIR), manager)
        | .ok false =>
            match manager.removeLink crates.toAxFs path with
            | (some _, manager) => (.ok 0, manager)
            | (none, manager) => (.error (.err .ENOENT), manager)

end Calls

/-! ## What the calls do to the table -/

section Specifications

variable {FsState : Type} {crates : PathCrates FsState} {manager : LinkManager FsState}

theorem raised_new (path : Str) :
    raised crates (FilePath.new crates manager path) =
      (raised crates (FilePath.canonicalName crates manager.fs path)).map
        manager.realPath := by
  rw [FilePath.new]
  cases FilePath.canonicalName crates manager.fs path <;> rfl

theorem handleFilePath_eq (fds : FdPaths) (dirfd : Int) (path : Str) :
    handleFilePath crates fds manager dirfd path =
      (handledName crates fds manager dirfd path).map manager.realPath := by
  unfold handleFilePath handledName
  split
  · exact raised_new path
  · split
    · cases ofLookup (fds.filePath dirfd) with
      | error fault => rfl
      | ok path => exact raised_new path
    · cases basePath crates fds manager dirfd with
      | error fault => rfl
      | ok base => exact raised_new (FilePath.joined base path)

theorem handleFilePath_eq_ok {fds : FdPaths} {dirfd : Int} {path resolved : Str}
    (handled : handleFilePath crates fds manager dirfd path = .ok resolved) :
    ∃ name, handledName crates fds manager dirfd path = .ok name ∧
      manager.realPath name = resolved := by
  rw [handleFilePath_eq] at handled
  cases named : handledName crates fds manager dirfd path with
  | error fault =>
      rw [named] at handled
      cases handled
  | ok name =>
      rw [named] at handled
      exact ⟨name, rfl, Except.ok.inj handled⟩

theorem linkOperands_eq_ok {fds : FdPaths} {oldDirfd newDirfd : Int}
    {oldPath newPath : Except (Fault LinuxError) Str} {old new : Str}
    (operands :
      linkOperands crates fds manager oldDirfd oldPath newDirfd newPath = .ok (old, new)) :
    (∃ text, oldPath = .ok text ∧ handleFilePath crates fds manager oldDirfd text = .ok old) ∧
    ∃ text, newPath = .ok text ∧ handleFilePath crates fds manager newDirfd text = .ok new := by
  obtain ⟨oldText, isOld, operands⟩ := bind_eq_ok_iff.mp operands
  obtain ⟨newText, isNew, operands⟩ := bind_eq_ok_iff.mp operands
  obtain ⟨oldName, first, operands⟩ := bind_eq_ok_iff.mp operands
  obtain ⟨newName, second, operands⟩ := bind_eq_ok_iff.mp operands
  obtain ⟨rfl, rfl⟩ := Prod.mk.inj (Except.ok.inj operands)
  exact ⟨⟨oldText, isOld, first⟩, newText, isNew, second⟩

theorem LinkManager.createLink_links (axfs : AxFs FsState) (src dst : Str) :
    (manager.createLink axfs src dst).2.links =
      if axfs.absolutePathExists manager.fs dst = true ∧ isDir dst = true
      then manager.links.insert src dst else manager.links := by
  unfold createLink
  by_cases there : axfs.absolutePathExists manager.fs dst = true
  · by_cases directory : isDir dst = true
    · simp only [there, directory, not_true_eq_false, if_false, and_self, if_true]
      exact atomicLinkUpdate_links src dst
    · simp [there, directory]
  · simp [there]

theorem LinkManager.removeLink_links (axfs : AxFs FsState) (src : Str) :
    (manager.removeLink axfs src).2.links = manager.links.erase src := by
  cases found : manager.links.lookup src with
  | some dst =>
      simp only [removeLink, found]
      exact decreaseRefCount_links dst
  | none =>
      have unchanged : manager.links.erase src = manager.links := by
        apply Finmap.ext_lookup
        intro asked
        by_cases isSrc : asked = src
        · rw [isSrc, Finmap.lookup_erase, found]
        · rw [Finmap.lookup_erase_ne isSrc]
      simp only [removeLink, found, unchanged]
      split <;> rfl

/-- The entry `sys_linkat` makes, the name first. -/
def linkMade (crates : PathCrates FsState) (fds : FdPaths) (manager : LinkManager FsState)
    (oldDirfd : Int) (oldPath : Except (Fault LinuxError) Str)
    (newDirfd : Int) (newPath : Except (Fault LinuxError) Str) :
    Option (Str × Str) :=
  match linkOperands crates fds manager oldDirfd oldPath newDirfd newPath with
  | .error _ => none
  | .ok (old, new) =>
      if crates.absolutePathExists manager.fs old = true ∧ isDir old = true
      then some (new, old) else none

theorem linkMade_eq_some {fds : FdPaths} {oldDirfd newDirfd : Int}
    {oldPath newPath : Except (Fault LinuxError) Str} {name target : Str}
    (made : linkMade crates fds manager oldDirfd oldPath newDirfd newPath = some (name, target)) :
    linkOperands crates fds manager oldDirfd oldPath newDirfd newPath = .ok (target, name) ∧
      crates.absolutePathExists manager.fs target = true ∧
      isDir target = true := by
  unfold linkMade at made
  split at made
  · cases made
  · next old new operands =>
      obtain ⟨conditions, isEntry⟩ := Option.ite_none_right_eq_some.mp made
      obtain ⟨rfl, rfl⟩ := Prod.mk.inj (Option.some.inj isEntry)
      exact ⟨operands, conditions⟩

theorem sysLinkat_state (fds : FdPaths) (oldDirfd : Int)
    (oldPath : Except (Fault LinuxError) Str) (newDirfd : Int)
    (newPath : Except (Fault LinuxError) Str) (flags : Int) :
    (sysLinkat crates fds manager oldDirfd oldPath newDirfd newPath flags).2 =
      match linkOperands crates fds manager oldDirfd oldPath newDirfd newPath
      with
      | .error _ => manager
      | .ok (old, new) => (manager.createLink crates.toAxFs new old).2 := by
  unfold sysLinkat
  cases linkOperands crates fds manager oldDirfd oldPath newDirfd newPath with
  | error fault => rfl
  | ok operands =>
      obtain ⟨old, new⟩ := operands
      simp only
      rcases manager.createLink crates.toAxFs new old with ⟨_ | _, after⟩ <;>
        rfl

theorem sysLinkat_links (fds : FdPaths) (oldDirfd : Int)
    (oldPath : Except (Fault LinuxError) Str) (newDirfd : Int)
    (newPath : Except (Fault LinuxError) Str) (flags : Int) :
    (sysLinkat crates fds manager oldDirfd oldPath newDirfd newPath flags).2.links =
      match linkMade crates fds manager oldDirfd oldPath newDirfd newPath
      with
      | some (name, target) => manager.links.insert name target
      | none => manager.links := by
  rw [sysLinkat_state, linkMade]
  cases linkOperands crates fds manager oldDirfd oldPath newDirfd newPath with
  | error fault => rfl
  | ok operands =>
      obtain ⟨old, new⟩ := operands
      simp only
      rw [LinkManager.createLink_links]
      split <;> rfl

theorem linkMade_of_sysLinkat_ok {fds : FdPaths} {oldDirfd : Int}
    {oldPath : Except (Fault LinuxError) Str} {newDirfd : Int}
    {newPath : Except (Fault LinuxError) Str} {flags value : Int}
    (succeeded :
      (sysLinkat crates fds manager oldDirfd oldPath newDirfd newPath flags).1 = .ok value) :
    ∃ entry,
      linkMade crates fds manager oldDirfd oldPath newDirfd newPath =
        some entry := by
  unfold sysLinkat at succeeded
  unfold linkMade
  split at succeeded
  · cases succeeded
  · next old new _ =>
      simp only [LinkManager.createLink] at succeeded
      by_cases there : crates.absolutePathExists manager.fs old = true
      · by_cases directory : isDir old = true
        · exact ⟨(new, old), if_pos ⟨there, directory⟩⟩
        · simp [there, directory] at succeeded
      · simp [there] at succeeded

/-- Where `sys_unlinkat` removes a name that is no directory, the name was
resolved, it is known to `metadata`, and only its entry can be gone. -/
theorem sysUnlinkat_eq_ok {fds : FdPaths} {dirfd : Int} {path : Except (Fault LinuxError) Str}
    {flags : Nat} {value : Int} (isUnlink : flags ≠ atRemovedir)
    (succeeded : (sysUnlinkat crates fds manager dirfd path flags).1 = .ok value) :
    ∃ resolved, path >>= handleFilePath crates fds manager dirfd = .ok resolved ∧
      crates.metadataIsDir manager.fs resolved = .ok false ∧
      (sysUnlinkat crates fds manager dirfd path flags).2 =
        (manager.removeLink crates.toAxFs resolved).2 := by
  unfold sysUnlinkat at succeeded ⊢
  cases handled : path >>= handleFilePath crates fds manager dirfd with
  | error fault =>
      rw [handled] at succeeded
      cases succeeded
  | ok resolved =>
      rw [handled] at succeeded
      simp only [if_neg isUnlink] at succeeded ⊢
      refine ⟨resolved, rfl, ?_⟩
      cases found : crates.metadataIsDir manager.fs resolved with
      | error error => simp [found] at succeeded
      | ok directory =>
          cases directory with
          | true => simp [found] at succeeded
          | false =>
              refine ⟨rfl, ?_⟩
              simp only
              split <;> simp [*]

theorem lookup_of_sysUnlinkat {fds : FdPaths} {dirfd : Int} {path : Except (Fault LinuxError) Str}
    {flags : Nat} {name target : Str}
    (found : (sysUnlinkat crates fds manager dirfd path flags).2.links.lookup name = some target) :
    manager.links.lookup name = some target := by
  unfold sysUnlinkat at found
  split at found
  · exact found
  · next resolved _ =>
      have removed := @LinkManager.removeLink_links _ manager crates.toAxFs resolved
      split at found
      · split at found <;> exact found
      · split at found
        · exact found
        · exact found
        · have erased : (manager.links.erase resolved).lookup name = some target := by
            rw [← removed]
            split at found <;> simp_all
          by_cases same : name = resolved
          · rw [same, Finmap.lookup_erase] at erased
            cases erased
          · rwa [Finmap.lookup_erase_ne same] at erased

end Specifications

end Vegar.Path

import Vegar.File.FdTable
import Vegar.Path.Canonical

/-!
# Three ways to look at a file

`sys_stat`, `sys_fstat` and `sys_fstatat` of `api/src/imp/fs/stat.rs`, and
`sys_openat` of `api/src/imp/fs/fd_ops.rs`.  Only `sys_fstatat` uses what
`handle_file_path` makes of a path.
-/

namespace Vegar.Fs

open Vegar.Lib Vegar.Path Vegar.File
open FdWorld (fdIndex fdIndex_ofNat)

/-! ## Files -/

/-- `axfs::fops::FileAttr`. -/
structure FileAttr where
  fileType : BitVec 8
  perm : BitVec 16
  size : BitVec 64
  blocks : BitVec 64
  deriving DecidableEq

/-- `Kstat` with its `Default`. -/
structure Kstat where
  ino : BitVec 64 := 1
  nlink : BitVec 32 := 1
  uid : BitVec 32 := 1
  gid : BitVec 32 := 1
  mode : BitVec 32 := 0
  size : BitVec 64 := 0
  blocks : BitVec 64 := 0
  blksize : BitVec 32 := 4096
  deriving DecidableEq

def sIfdir : BitVec 32 := 0o040000

/-- The open files: `File` with the answer of `get_attr`, `Directory` with the
number of its node, and the others with the answer of `stat`. -/
inductive FileLike where
  | file (attr : AxResult FileAttr) (path : Str)
  | directory (node : Nat) (path : Str)
  | other (stat : LinuxResult Kstat)

/-- `stat` of the open files. -/
def FileLike.stat (linuxError : AxError → LinuxError) : FileLike → LinuxResult Kstat
  | .file (.error error) _ => .error (linuxError error)
  | .file (.ok attr) _ =>
      .ok
        { mode := (attr.fileType.setWidth 32 <<< 12) ||| attr.perm.setWidth 32
          size := attr.size
          blocks := attr.blocks
          blksize := 512 }
  | .directory _ _ => .ok { mode := sIfdir ||| 0o755 }
  | .other stat => stat

/-- `axfs::fops::OpenOptions`, the part that is set. -/
structure OpenOptions where
  read : Bool := false
  write : Bool := false
  append : Bool := false
  truncate : Bool := false
  create : Bool := false
  execute : Bool := false
  directory : Bool := false
  deriving DecidableEq

/-- `OpenOptions::new().set_read(true)`. -/
def OpenOptions.readOnly : OpenOptions := { read := true }

def oWronly : BitVec 32 := 0x1
def oCreat : BitVec 32 := 0x40
def oTrunc : BitVec 32 := 0x200
def oAppend : BitVec 32 := 0x400
def oDirectory : BitVec 32 := 0x10000
def oPath : BitVec 32 := 0x200000

/-- `flags_to_options`. -/
def flagsToOptions (flags : BitVec 32) : OpenOptions where
  read := flags &&& 0b11 != oWronly
  write := flags &&& 0b11 != 0
  append := flags &&& oAppend != 0
  truncate := flags &&& oTrunc != 0
  create := flags &&& oCreat != 0
  execute := flags &&& oPath != 0
  directory := flags &&& oDirectory != 0

/-- What is found under a canonical path: a file with the answer of
`get_attr`, a directory with the answer of `open_dir`, or neither. -/
inductive Entry where
  | file (attr : AxResult FileAttr)
  | directory (opened : AxResult Nat)
  | missing (error : AxError)

namespace Entry

def asFile : Entry → AxResult (AxResult FileAttr)
  | file attr => .ok attr
  | directory _ => .error .IsADirectory
  | missing error => .error error

def asDirectory : Entry → AxResult Nat
  | file _ => .error .NotADirectory
  | directory opened => opened
  | missing error => .error error

/-- What `stat` shows of the entry. -/
def shown (linuxError : AxError → LinuxError) : Entry → LinuxResult Kstat
  | file attr => (FileLike.file attr []).stat linuxError
  | directory (.ok node) => (FileLike.directory node []).stat linuxError
  | directory (.error error) => .error (linuxError error)
  | missing error => .error (linuxError error)

end Entry

structure Disk where
  cwd : Str
  entries : Str → Entry

/-- The functions of `axfs::fops` that open files. -/
structure StatCrates extends PathCrates Disk where
  openFile : Disk → Str → OpenOptions → AxResult (AxResult FileAttr) × Disk
  openDir : Disk → Str → OpenOptions → AxResult Nat × Disk
  openFileAt : Disk → (node : Nat) → Str → OpenOptions → AxResult (AxResult FileAttr) × Disk
  openDirAt : Disk → (node : Nat) → Str → OpenOptions → AxResult Nat × Disk

/-! ## The calls -/

abbrev FileTable := FlattenObjects FileLike axFileLimit

/-- `get_file_like`. -/
def getFileLike (table : FileTable) (fd : BitVec 32) :
    LinuxResult FileLike :=
  match table.get (fdIndex fd) with
  | some file => .ok file
  | none => .error .EBADF

/-- `add_file_like`. -/
def addFileLike (allocator : IdAllocator FileLike axFileLimit)
    (table : FileTable) (file : FileLike) :
    LinuxResult (BitVec 32) × FileTable :=
  match allocator.pick table with
  | some id => (.ok (.ofNat 32 id), table.setSlot id (some file))
  | none => (.error .EMFILE, table)

/-- `Directory::from_fd`. -/
def directoryFromFd (table : FileTable) (dirfd : Int) : LinuxResult (Nat × Str) :=
  match getFileLike table (.ofInt 32 dirfd) with
  | .ok (.directory node path) => .ok (node, path)
  | .ok _ => .error .ENOTDIR
  | .error error => .error error

/-- `File::from_fd` and `Directory::from_fd`, followed by `path`. -/
def fdPaths (table : FileTable) : FdPaths where
  filePath dirfd :=
    match getFileLike table (.ofInt 32 dirfd) with
    | .ok (.file _ path) => .ok path
    | .ok _ => .error .EINVAL
    | .error error => .error error
  directoryPath dirfd := (directoryFromFd table dirfd).map Prod.snd

def atEmptyPath : BitVec 32 := 0x1000

section Calls

variable (crates : StatCrates)

/-- `stat_at_path`. -/
def statAtPath (disk : Disk) (path : Str) : LinuxResult Kstat :=
  match crates.openFile disk path .readOnly with
  | (.ok attr, _) => (FileLike.file attr path).stat crates.linuxError
  | (.error .IsADirectory, after) =>
      match (crates.openDir after path .readOnly).1 with
      | .ok node => (FileLike.directory node path).stat crates.linuxError
      | .error error => .error (crates.linuxError error)
  | (.error error, _) => .error (crates.linuxError error)

/-- What the calls write to `statbuf` before they return 0; its address is
checked after the file. -/
def fillStatbuf (statbuf : Except (Fault LinuxError) Unit)
    (kstat : LinuxResult Kstat) : Except (Fault LinuxError) Kstat := do
  let kstat ← ofLookup kstat
  statbuf
  return kstat

variable (table : FileTable) (manager : LinkManager Disk)

/-- `sys_stat`; the arguments are what `get_as_str` and `get_as_mut` returned
for them. -/
def sysStat (path : Except (Fault LinuxError) Str) (statbuf : Except (Fault LinuxError) Unit) :
    Except (Fault LinuxError) Kstat := do
  let path ← path
  fillStatbuf statbuf (statAtPath crates manager.fs path)

/-- `sys_fstat`. -/
def sysFstat (fd : BitVec 32) (statbuf : Except (Fault LinuxError) Unit) :
    Except (Fault LinuxError) Kstat := do
  let file ← ofLookup (getFileLike table fd)
  fillStatbuf statbuf (file.stat crates.linuxError)

/-- `sys_fstatat`; a null path is `none`. -/
def sysFstatat (dirfd : Int) (path : Except (Fault LinuxError) (Option Str))
    (statbuf : Except (Fault LinuxError) Unit) (flags : BitVec 32) :
    Except (Fault LinuxError) Kstat := do
  let path ← path
  if (path.getD []).isEmpty then
    if flags &&& atEmptyPath = 0 then
      throw (.err .ENOENT)
    else
      let file ← ofLookup (getFileLike table (.ofInt 32 dirfd))
      fillStatbuf statbuf (file.stat crates.linuxError)
  else
    let path ← handleFilePath crates.toPathCrates (fdPaths table) manager dirfd (path.getD [])
    fillStatbuf statbuf (statAtPath crates manager.fs path)

/-- The end of `sys_openat`, for a directory. -/
def openDirectory (disk : Disk) (dir : Option Nat) (path realPath : Str)
    (opts : OpenOptions) : LinuxResult FileLike × Disk :=
  match
    match dir with
    | none => crates.openDir disk path opts
    | some node => crates.openDirAt disk node path opts
  with
  | (.ok node, after) => (.ok (.directory node realPath), after)
  | (.error error, after) => (.error (crates.linuxError error), after)

/-- The file `sys_openat` opens. -/
def openFileLike (disk : Disk) (dir : Option Nat) (path realPath : Str)
    (opts : OpenOptions) : LinuxResult FileLike × Disk :=
  if opts.directory then openDirectory crates disk dir path realPath opts
  else
    match
      match dir with
      | none => crates.openFile disk path opts
      | some node => crates.openFileAt disk node path opts
    with
    | (.error .IsADirectory, after) =>
        openDirectory crates after dir path realPath opts
    | (.error error, after) => (.error (crates.linuxError error), after)
    | (.ok attr, after) => (.ok (.file attr realPath), after)

/-- The directory a relative path of `sys_openat` starts from. -/
def openatDir (dirfd : Int) (path : Str) : LinuxResult (Option Nat) :=
  if path.head? = some '/' ∨ dirfd = atFdcwd then .ok none
  else (directoryFromFd table dirfd).map fun found => some found.1

/-- The path of `sys_openat`, the directory it starts from, and what
`handle_file_path` makes of it. -/
def openatOperands (dirfd : Int) (path : Except (Fault LinuxError) Str) :
    Except (Fault LinuxError) (Str × Option Nat × Str) := do
  let path ← path
  let dir ← ofLookup (openatDir table dirfd path)
  let realPath ← handleFilePath crates.toPathCrates (fdPaths table) manager dirfd path
  return (path, dir, realPath)

/-- `sys_openat`: the descriptor, the table and the file system. -/
def sysOpenat (allocator : IdAllocator FileLike axFileLimit) (dirfd : Int)
    (path : Except (Fault LinuxError) Str) (flags : BitVec 32) :
    Except (Fault LinuxError) (BitVec 32) × FileTable × Disk :=
  match openatOperands crates table manager dirfd path with
  | .error fault => (.error fault, table, manager.fs)
  | .ok (path, dir, realPath) =>
      match openFileLike crates manager.fs dir path realPath (flagsToOptions flags)
      with
      | (.error error, disk) => (.error (.err error), table, disk)
      | (.ok file, disk) =>
          let added := addFileLike allocator table file
          (ofLookup added.1, added.2, disk)

/-- `sys_openat` for reading, and `sys_fstat` of the new descriptor. -/
def openFstat (allocator : IdAllocator FileLike axFileLimit) (path : Str)
    (statbuf : Except (Fault LinuxError) Unit) :
    Except (Fault LinuxError) Kstat :=
  match sysOpenat crates table manager allocator atFdcwd (.ok path) 0 with
  | (.ok fd, opened, _) => sysFstat crates opened fd statbuf
  | (.error fault, _, _) => .error fault

structure StatsAgree (allocator : IdAllocator FileLike axFileLimit)
    (path : Str) (statbuf : Except (Fault LinuxError) Unit) : Prop where
  fstatat :
    sysFstatat crates table manager atFdcwd (.ok (some path)) statbuf 0 =
      sysStat crates manager (.ok path) statbuf
  fstat :
    openFstat crates table manager allocator path statbuf =
      sysStat crates manager (.ok path) statbuf

end Calls

/-! ## Canonical paths -/

/-- `axfs` makes an absolute path of every path and opens a file for reading
by looking it up. -/
structure StatCrates.LooksUp (crates : StatCrates) (canonical : (cwd path : Str) → Str) : Prop where
  absolute : ∀ cwd path, (canonical cwd path).head? = some '/'
  canonicalizes : ∀ disk path, crates.canonicalize disk path = .ok (canonical disk.cwd path)
  opensFile :
    ∀ disk path,
      crates.openFile disk path .readOnly = ((disk.entries (canonical disk.cwd path)).asFile, disk)
  opensDir :
    ∀ disk path,
      crates.openDir disk path .readOnly =
        ((disk.entries (canonical disk.cwd path)).asDirectory, disk)

/-- The name `FilePath::new` looks up in the table of links. -/
def slashedName (canonical : (cwd path : Str) → Str) (cwd path : Str) :
    Str :=
  let name := (canonical cwd path).trim
  if isDir path && !isDir name then name ++ ['/'] else name

/-- The path `handle_file_path` makes of a path that starts at the root or in
the current directory: the table of links is asked for the name and, if the
path is relative, for the current directory. -/
def resolvedPath (canonical : (cwd path : Str) → Str)
    (manager : LinkManager Disk) (path : Str) : Str :=
  let resolve (asked : Str) := manager.realPath (slashedName canonical manager.fs.cwd asked)
  if path.head? = some '/' then resolve path
  else resolve (FilePath.joined (resolve []) path)

section Agreement

variable {crates : StatCrates} {canonical : (cwd path : Str) → Str}
  {table : FileTable} {manager : LinkManager Disk}
  {allocator : IdAllocator FileLike axFileLimit}

theorem canonicalName_eq (looksUp : crates.LooksUp canonical) (disk : Disk) (path : Str) :
    FilePath.canonicalName crates.toPathCrates disk path =
      .ok (slashedName canonical disk.cwd path) :=
  canonicalName_of_absolute (looksUp.canonicalizes disk path) (looksUp.absolute disk.cwd path)

theorem raised_new_eq (looksUp : crates.LooksUp canonical) (path : Str) :
    raised crates.toPathCrates (FilePath.new crates.toPathCrates manager path) =
      .ok (manager.realPath (slashedName canonical manager.fs.cwd path)) := by
  rw [FilePath.new, canonicalName_eq looksUp]
  rfl

theorem handleFilePath_cwd (looksUp : crates.LooksUp canonical) (fds : FdPaths) {path : Str}
    (nonempty : path ≠ []) :
    handleFilePath crates.toPathCrates fds manager atFdcwd path =
      .ok (resolvedPath canonical manager path) := by
  have notEmpty : path.isEmpty = false := by
    rw [List.isEmpty_eq_false_iff]
    exact nonempty
  unfold handleFilePath resolvedPath
  by_cases absolute : path.head? = some '/'
  · rw [if_pos absolute, if_pos absolute]
    exact raised_new_eq looksUp path
  · rw [if_neg absolute, if_neg absolute, notEmpty, basePath, if_pos rfl, raised_new_eq looksUp]
    exact raised_new_eq looksUp _

theorem statAtPath_eq (looksUp : crates.LooksUp canonical) (disk : Disk) (path : Str) :
    statAtPath crates disk path =
      (disk.entries (canonical disk.cwd path)).shown crates.linuxError := by
  rw [statAtPath, looksUp.opensFile]
  cases found : disk.entries (canonical disk.cwd path) with
  | file attr => cases attr <;> rfl
  | directory opened =>
      simp only [Entry.asFile, looksUp.opensDir, found, Entry.asDirectory]
      cases opened <;> rfl
  | missing error =>
      by_cases isDirectory : error = .IsADirectory
      · subst isDirectory
        simp only [Entry.asFile, looksUp.opensDir, found, Entry.asDirectory]
        rfl
      · cases error <;> first | rfl | exact absurd rfl isDirectory

theorem openFileLike_eq (looksUp : crates.LooksUp canonical) (disk : Disk) (path realPath : Str) :
    ∃ opened : LinuxResult FileLike,
      openFileLike crates disk none path realPath .readOnly = (opened, disk) ∧
      (opened.bind fun file => file.stat crates.linuxError) =
        (disk.entries (canonical disk.cwd path)).shown
          crates.linuxError := by
  have notDirectory : OpenOptions.readOnly.directory = false := rfl
  simp only [openFileLike, notDirectory, openDirectory, looksUp.opensFile]
  cases found : disk.entries (canonical disk.cwd path) with
  | file attr =>
      refine ⟨_, rfl, ?_⟩
      cases attr <;> rfl
  | directory opened =>
      simp only [Entry.asFile, looksUp.opensDir, found, Entry.asDirectory]
      cases opened with
      | error error => exact ⟨_, rfl, rfl⟩
      | ok node => exact ⟨_, rfl, rfl⟩
  | missing error =>
      by_cases isDirectory : error = .IsADirectory
      · subst isDirectory
        simp only [Entry.asFile, looksUp.opensDir, found, Entry.asDirectory]
        exact ⟨_, rfl, rfl⟩
      · refine ⟨.error (crates.linuxError error), ?_, rfl⟩
        cases error <;> first | rfl | exact absurd rfl isDirectory

theorem getFileLike_addFileLike
    (hasRoom : ∃ id < axFileLimit, table.get id = none) (file : FileLike) :
    ∃ fd added, addFileLike allocator table file = (.ok fd, added) ∧
      getFileLike added fd = .ok file := by
  cases picked : allocator.pick table with
  | none =>
      obtain ⟨id, inside, free⟩ := hasRoom
      exact absurd free (allocator.pickFull table picked id inside)
  | some id =>
      have inside := (allocator.pickFree table id picked).1
      refine ⟨_, _, by rw [addFileLike, picked], ?_⟩
      rw [getFileLike, fdIndex_ofNat inside, FlattenObjects.get_setSlot _ inside, if_pos rfl]

theorem openatOperands_cwd (looksUp : crates.LooksUp canonical) {path : Str}
    (nonempty : path ≠ []) :
    openatOperands crates table manager atFdcwd (.ok path) =
      .ok (path, none, resolvedPath canonical manager path) := by
  have fromRoot : openatDir table atFdcwd path = .ok none := if_pos (Or.inr rfl)
  change (ofLookup (openatDir table atFdcwd path) >>= fun dir =>
      handleFilePath crates.toPathCrates (fdPaths table) manager atFdcwd
        path >>= fun realPath => pure (path, dir, realPath)) = _
  rw [fromRoot, handleFilePath_cwd looksUp _ nonempty]
  rfl

theorem openFstat_eq (looksUp : crates.LooksUp canonical)
    (hasRoom : ∃ id < axFileLimit, table.get id = none) {path : Str}
    (nonempty : path ≠ []) (statbuf : Except (Fault LinuxError) Unit) :
    openFstat crates table manager allocator path statbuf =
      fillStatbuf statbuf
        ((manager.fs.entries (canonical manager.fs.cwd path)).shown crates.linuxError) := by
  obtain ⟨opened, isOpened, shows⟩ :=
    openFileLike_eq looksUp manager.fs path (resolvedPath canonical manager path)
  have reading : flagsToOptions 0 = .readOnly := by
    decide
  rw [← shows, openFstat, sysOpenat, openatOperands_cwd looksUp nonempty]
  simp only [reading, isOpened]
  cases opened with
  | error error => rfl
  | ok file =>
      obtain ⟨fd, added, isAdded, isFound⟩ := @getFileLike_addFileLike table allocator hasRoom file
      simp only [isAdded]
      change sysFstat crates added fd statbuf = _
      rw [sysFstat, isFound]
      rfl

theorem statsAgree_iff (looksUp : crates.LooksUp canonical)
    (hasRoom : ∃ id < axFileLimit, table.get id = none) {path : Str}
    (nonempty : path ≠ []) (statbuf : Except (Fault LinuxError) Unit) :
    StatsAgree crates table manager allocator path statbuf ↔
      fillStatbuf statbuf
          ((manager.fs.entries
            (canonical manager.fs.cwd (resolvedPath canonical manager path))).shown
            crates.linuxError) =
        fillStatbuf statbuf
          ((manager.fs.entries (canonical manager.fs.cwd path)).shown crates.linuxError) := by
  have viaPath :
      sysStat crates manager (.ok path) statbuf =
        fillStatbuf statbuf
          ((manager.fs.entries (canonical manager.fs.cwd path)).shown crates.linuxError) := by
    rw [← statAtPath_eq looksUp]
    rfl
  have notEmpty : ((some path).getD []).isEmpty = false := by
    rw [Option.getD_some, List.isEmpty_eq_false_iff]
    exact nonempty
  have viaDirfd :
      sysFstatat crates table manager atFdcwd (.ok (some path)) statbuf 0 =
        fillStatbuf statbuf
          ((manager.fs.entries
            (canonical manager.fs.cwd (resolvedPath canonical manager path))).shown
            crates.linuxError) := by
    rw [← statAtPath_eq looksUp]
    change
      (if ((some path).getD []).isEmpty then _
        else
          handleFilePath crates.toPathCrates (fdPaths table) manager atFdcwd path >>= _) = _
    rw [notEmpty, handleFilePath_cwd looksUp _ nonempty]
    rfl
  constructor
  · intro agree
    rw [← viaDirfd, ← viaPath]
    exact agree.fstatat
  · intro same
    constructor
    · rw [viaDirfd, viaPath, same]
    · rw [openFstat_eq looksUp hasRoom nonempty, viaPath]

end Agreement

/-- The three calls agree on a path, whatever the file system holds, exactly
when the path that `handle_file_path` makes of it has the same canonical
form. -/
theorem stat_calls_agree_iff (crates : StatCrates) {canonical : (cwd path : Str) → Str}
    (looksUp : crates.LooksUp canonical)
    (allocator : IdAllocator FileLike axFileLimit) (table : FileTable)
    (hasRoom : ∃ id < axFileLimit, table.get id = none)
    (manager : LinkManager Disk) (path : Str) (nonempty : path ≠ []) :
    (∀ entries statbuf,
      StatsAgree crates table { manager with fs := ⟨manager.fs.cwd, entries⟩ } allocator path
        statbuf) ↔
      canonical manager.fs.cwd (resolvedPath canonical manager path) =
        canonical manager.fs.cwd path := by
  constructor
  · intro agree
    by_contra different
    let entries (name : Str) : Entry :=
      if name = canonical manager.fs.cwd path then .file (.ok ⟨0, 0, 0, 0⟩)
      else .missing .NotFound
    have same := (statsAgree_iff looksUp hasRoom nonempty (.ok ())).mp (agree entries (.ok ()))
    have resolvedMissing :
        entries (canonical manager.fs.cwd (resolvedPath canonical manager path)) =
          .missing .NotFound :=
      if_neg different
    have pathFound : entries (canonical manager.fs.cwd path) = .file (.ok ⟨0, 0, 0, 0⟩) :=
      if_pos rfl
    change
      fillStatbuf (.ok ())
          ((entries (canonical manager.fs.cwd (resolvedPath canonical manager path))).shown _) =
        fillStatbuf (.ok ()) ((entries (canonical manager.fs.cwd path)).shown _) at same
    rw [resolvedMissing, pathFound] at same
    cases same
  · intro same entries statbuf
    rw [statsAgree_iff looksUp hasRoom nonempty]
    change
      fillStatbuf statbuf
          ((entries (canonical manager.fs.cwd (resolvedPath canonical manager path))).shown _) = _
    rw [same]

def rooted (cwd path : Str) : Str :=
  if path.head? = some '/' then path else '/' :: (cwd ++ path)

def lookupCrates : StatCrates where
  absolutePathExists disk path :=
    match disk.entries path with
    | .missing _ => false
    | _ => true
  removeFile disk _ := (.error .Unsupported, disk)
  linuxError
    | .NotFound => .ENOENT
    | _ => .other 0
  canonicalize disk path := .ok (rooted disk.cwd path)
  metadataIsDir disk path :=
    match disk.entries (rooted disk.cwd path) with
    | .file _ => .ok false
    | .directory _ => .ok true
    | .missing error => .error error
  removeDir disk _ := (.error .Unsupported, disk)
  openFile disk path _ := ((disk.entries (rooted disk.cwd path)).asFile, disk)
  openDir disk path _ := ((disk.entries (rooted disk.cwd path)).asDirectory, disk)
  openFileAt disk _ path _ := ((disk.entries path).asFile, disk)
  openDirAt disk _ path _ := ((disk.entries path).asDirectory, disk)

theorem lookupCrates_looksUp : lookupCrates.LooksUp rooted where
  absolute cwd path := by
    unfold rooted
    split
    · next absolute => exact absolute
    · rfl
  canonicalizes _ _ := rfl
  opensFile _ _ := rfl
  opensDir _ _ := rfl

/-- A disk with one directory `/d/` and no links. -/
def oneDirectory : LinkManager Disk where
  fs :=
    { cwd := []
      entries := fun name =>
        if name = Str.lit "/d/" then .directory (.ok 1)
        else .missing .NotFound }
  links := ∅
  refCounts := ∅
  unlinked := ∅
  removeCall := none

theorem stat_calls_agree_iff_relative :
    resolvedPath rooted oneDirectory (Str.lit "d") = Str.lit "/d" ∧
      ∀ entries statbuf,
        StatsAgree lookupCrates FlattenObjects.new
          { oneDirectory with fs := ⟨oneDirectory.fs.cwd, entries⟩ }
          (.smallest FileLike axFileLimit) (Str.lit "d") statbuf := by
  have hasRoom : ∃ id < axFileLimit, (FlattenObjects.new : FileTable).get id = none :=
    ⟨0, by decide, FlattenObjects.get_new 0⟩
  refine ⟨by decide +kernel, ?_⟩
  apply (stat_calls_agree_iff lookupCrates lookupCrates_looksUp
      (.smallest FileLike axFileLimit) FlattenObjects.new hasRoom
      oneDirectory (Str.lit "d") (by decide)).mpr
  decide +kernel

/-- The state after `linkat` from `/d/` to `/a`. -/
def linkedDirectory : LinkManager Disk :=
  (sysLinkat lookupCrates.toPathCrates (fdPaths FlattenObjects.new)
    oneDirectory atFdcwd (.ok (Str.lit "/d/")) atFdcwd
    (.ok (Str.lit "/a")) 0).2

/-- `sys_stat` does not find the name of a link, `sys_fstatat` finds the
directory it leads to. -/
theorem stat_misses_link :
    sysStat lookupCrates linkedDirectory (.ok (Str.lit "/a")) (.ok ()) = .error (.err .ENOENT) ∧
    sysFstatat lookupCrates FlattenObjects.new linkedDirectory atFdcwd
        (.ok (some (Str.lit "/a"))) (.ok ()) 0 =
      .ok { mode := sIfdir ||| 0o755 } ∧
    ¬ StatsAgree lookupCrates FlattenObjects.new linkedDirectory
      (.smallest FileLike axFileLimit) (Str.lit "/a") (.ok ()) := by
  have missed :
      sysStat lookupCrates linkedDirectory (.ok (Str.lit "/a")) (.ok ()) =
        .error (.err .ENOENT) := by
    decide +kernel
  have found :
      sysFstatat lookupCrates FlattenObjects.new linkedDirectory atFdcwd
          (.ok (some (Str.lit "/a"))) (.ok ()) 0 =
        .ok { mode := sIfdir ||| 0o755 } := by
    decide +kernel
  refine ⟨missed, found, ?_⟩
  intro agree
  have same := agree.fstatat
  rw [missed, found] at same
  cases same

end Vegar.Fs

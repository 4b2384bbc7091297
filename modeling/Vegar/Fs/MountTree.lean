import Vegar.Fs.Mount
import Vegar.Lib.Roster
import Vegar.Path.Canonical

/-!
# Mounted directories and their spellings

`sys_mount` and `sys_umount2` one after the other, with no links.  A mounted
directory is a list of names; the calls compare texts that keep a slash at
the end, `check_mounted` by their beginnings.
-/

namespace Vegar.Fs

open Vegar.Lib Vegar.Path

/-! ## Calls one after the other -/

section Calls

variable {FsState : Type} (crates : PathCrates FsState) (fds : FdPaths)
  (manager : LinkManager FsState) (mounted : List MountedFs)

/-- `sys_mount`, and the list after it. -/
def sysMount (source target fsType : Except (Fault LinuxError) Str) :
    Except (Fault LinuxError) Nat × List MountedFs :=
  match mountPaths crates fds manager source target fsType with
  | .error fault => (.error fault, mounted)
  | .ok (device, mntDir) =>
      if checkMounted mounted mntDir then (.error (.err .EPERM), mounted)
      else if crates.absolutePathExists manager.fs mntDir then
        (.ok 0, mounted ++ [⟨device, mntDir⟩])
      else (.error (.err .EPERM), mounted)

/-- `sys_umount2`, and the list after it. -/
def sysUmount2 (target : Except (Fault LinuxError) Str) (flags : Int) :
    Except (Fault LinuxError) Nat × List MountedFs :=
  match umountPath crates fds manager target flags with
  | .error fault => (.error fault, mounted)
  | .ok mntDir =>
      let (removed, retained) := umountFatFs mounted mntDir
      (if removed then .ok 0 else .error (.err .EPERM), retained)

end Calls

inductive MountCall (FsState : Type) where
  | mount (fds : FdPaths) (manager : LinkManager FsState)
      (source target fsType : Except (Fault LinuxError) Str)
  | umount2 (fds : FdPaths) (manager : LinkManager FsState)
      (target : Except (Fault LinuxError) Str) (flags : Int)

namespace MountCall

variable {FsState : Type}

def run (crates : PathCrates FsState) (mounted : List MountedFs) :
    MountCall FsState → Except (Fault LinuxError) Nat × List MountedFs
  | mount fds manager source target fsType =>
      sysMount crates fds manager mounted source target fsType
  | umount2 fds manager target flags =>
      sysUmount2 crates fds manager mounted target flags

def NoLinks : MountCall FsState → Prop
  | mount _ manager _ _ _ => manager.links = ∅
  | umount2 _ manager _ _ => manager.links = ∅

end MountCall

/-! ## The directories behind the texts -/

def components (path : Str) : List Str := Separated.components '/' path

/-- The directory a text denotes: the names of its canonical path, with the
white space that `FilePath::new` takes off. -/
def denoted {FsState : Type} (crates : PathCrates FsState) (fs : FsState)
    (text : Str) : Option (List Str) :=
  (crates.canonicalize fs text).toOption.map components

def MountCall.dir {FsState : Type} (crates : PathCrates FsState) :
    MountCall FsState → Option (List Str)
  | mount _ manager _ (.ok target) _ => denoted crates manager.fs target
  | _ => none

structure MountRecord extends MountedFs where
  dir : Option (List Str)
  deriving DecidableEq

def entries (records : List MountRecord) : List MountedFs := records.map MountRecord.toMountedFs

def recorded (records : List MountRecord) (after : List MountedFs)
    (dir : Option (List Str)) : List MountRecord :=
  records.filter (fun record => record.toMountedFs ∈ after) ++
    (after.drop records.length).map fun entry => ⟨entry, dir⟩

def mountCallMachine {FsState : Type} (crates : PathCrates FsState) :
    Machine (List MountRecord) (MountCall FsState) where
  start records := records = []
  next records call :=
    match call.run crates (entries records) with
    | (.ok _, after) => some (recorded records after (call.dir crates))
    | (.error _, _) => none

/-! ## What is claimed of a directory -/

def Below (records : List MountRecord) (dir : List Str) : Prop :=
  ∃ record ∈ records, ∃ above, record.dir = some above ∧ above <+: dir

def IsMounted (records : List MountRecord) (dir : List Str) : Prop :=
  ∃ record ∈ records, record.dir = some dir

/-- The calls answer for the directory, when it is written as `text` and
`FilePath::new` makes `path` of that. -/
structure FollowsTree {FsState : Type} (crates : PathCrates FsState)
    (fds : FdPaths) (manager : LinkManager FsState)
    (records : List MountRecord) (dir : List Str) (text path : Str) :
    Prop where
  check : checkMounted (entries records) path = true ↔ Below records dir
  umount :
    (sysUmount2 crates fds manager (entries records) (.ok text) 0).1 = .ok 0 ↔ IsMounted records dir

/-- `FilePath::new` has taken nothing off: the texts of the entries and the
path consist of the names of their directories. -/
structure Untrimmed (records : List MountRecord) (dir : List Str) (path : Str) : Prop where
  mounted : ∀ record ∈ records, record.dir = some (components record.mntDir)
  asked : dir = components path

def HasText (records : List MountRecord) (path : Str) : Prop :=
  ∃ record ∈ records, record.mntDir = path

def HasStart (records : List MountRecord) (path : Str) : Prop :=
  ∃ record ∈ records, record.mntDir <+: path

structure TextsTell (records : List MountRecord) (dir : List Str) (path slashed : Str) : Prop where
  mounted : IsMounted records dir → HasText records path ∧ HasText records slashed
  apart : ¬ Below records dir → ¬ HasStart records path
  trimmed :
    ¬ Untrimmed records dir path →
      (¬ IsMounted records dir → ¬ HasText records path ∧ ¬ HasText records slashed) ∧
      (Below records dir → HasStart records path)

/-- What is known of `canonicalize`: its results start with a slash and have
no two in a row, and a slash at the end makes no difference to it. -/
structure CanonicalPaths {FsState : Type} (crates : PathCrates FsState) : Prop where
  normal :
    ∀ fs text canonical, crates.canonicalize fs text = .ok canonical →
      Separated.Normal '/' canonical
  slash :
    ∀ fs text, text ≠ [] → isDir text = false →
      crates.canonicalize fs (text ++ ['/']) = crates.canonicalize fs text

/-! ## Paths without links -/

section Paths

variable {FsState : Type} {crates : PathCrates FsState}

theorem normal_of_canonicalName
    (canonicalPaths : CanonicalPaths crates) {fs : FsState} {text name : Str}
    (named : FilePath.canonicalName crates fs text = .ok name) :
    Separated.Normal '/' name := by
  obtain ⟨canonical, found, isName⟩ := canonicalName_eq_ok named
  rw [isName]
  exact normal_withSlash_trim (canonicalPaths.normal fs text canonical found) text

theorem canonicalName_append_slash (canonicalPaths : CanonicalPaths crates) {fs : FsState}
    {text name slashed : Str} (nonempty : text ≠ [])
    (notDir : isDir text = false)
    (named : FilePath.canonicalName crates fs text = .ok name)
    (namedSlashed : FilePath.canonicalName crates fs (text ++ ['/']) = .ok slashed) :
    slashed = name ∨ slashed = name ++ ['/'] := by
  obtain ⟨canonical, found, isName⟩ := canonicalName_eq_ok named
  obtain ⟨again, foundAgain, isSlashed⟩ := canonicalName_eq_ok namedSlashed
  rw [canonicalPaths.slash fs text nonempty notDir, found] at foundAgain
  obtain rfl := Except.ok.inj foundAgain
  unfold withSlash at isName isSlashed
  rw [notDir, Bool.false_and, if_neg Bool.false_ne_true] at isName
  rw [isName]
  split at isSlashed
  · exact Or.inr isSlashed
  · exact Or.inl isSlashed

theorem raised_eq_ok {α : Type} {result : Except (Fault AxError) α} {value : α}
    (isOk : raised crates result = .ok value) : result = .ok value := by
  cases result with
  | error fault => cases isOk
  | ok found => exact congrArg Except.ok (Except.ok.inj isOk)

variable {fds : FdPaths} {manager : LinkManager FsState} {dirfd : Int}

theorem normal_of_handledName (canonicalPaths : CanonicalPaths crates) {text name : Str}
    (handled : handledName crates fds manager dirfd text = .ok name) :
    Separated.Normal '/' name := by
  unfold handledName at handled
  split at handled
  · exact normal_of_canonicalName canonicalPaths (raised_eq_ok handled)
  · split at handled
    · obtain ⟨opened, -, named⟩ := bind_eq_ok_iff.mp handled
      exact normal_of_canonicalName canonicalPaths (raised_eq_ok named)
    · obtain ⟨base, -, named⟩ := bind_eq_ok_iff.mp handled
      exact normal_of_canonicalName canonicalPaths (raised_eq_ok named)

theorem joined_append_slash (base text : Str) :
    FilePath.joined base (text ++ ['/']) =
      FilePath.joined base text ++ ['/'] := by
  rw [FilePath.joined, FilePath.joined, List.append_assoc]

theorem handledName_append_slash (canonicalPaths : CanonicalPaths crates) {text name slashed : Str}
    (nonempty : text ≠ []) (notDir : isDir text = false)
    (handled : handledName crates fds manager dirfd text = .ok name)
    (handledSlashed : handledName crates fds manager dirfd (text ++ ['/']) = .ok slashed) :
    slashed = name ∨ slashed = name ++ ['/'] := by
  have sameHead : (text ++ ['/']).head? = text.head? := by
    rw [List.head?_append_of_ne_nil _ nonempty]
  unfold handledName at handled handledSlashed
  rw [sameHead] at handledSlashed
  split at handled
  · next absolute =>
      rw [if_pos absolute] at handledSlashed
      exact canonicalName_append_slash canonicalPaths nonempty notDir
          (raised_eq_ok handled) (raised_eq_ok handledSlashed)
  · next relative =>
      have notEmpty : ¬ text.isEmpty = true := by
        simpa using nonempty
      have stillNotEmpty : ¬ (text ++ ['/']).isEmpty = true := by
        simp
      rw [if_neg notEmpty] at handled
      rw [if_neg relative, if_neg stillNotEmpty] at handledSlashed
      obtain ⟨base, isBase, named⟩ := bind_eq_ok_iff.mp handled
      obtain ⟨again, isAgain, namedSlashed⟩ := bind_eq_ok_iff.mp handledSlashed
      obtain rfl := Except.ok.inj (isBase.symm.trans isAgain)
      rw [joined_append_slash] at namedSlashed
      have joinedNotDir : isDir (FilePath.joined base text) = false := by
        rw [isDir, FilePath.joined, List.getLast?_append_of_ne_nil _ nonempty]
        exact notDir
      have joinedNonempty : FilePath.joined base text ≠ [] := by
        rw [FilePath.joined]
        simp [nonempty]
      exact canonicalName_append_slash canonicalPaths joinedNonempty joinedNotDir
          (raised_eq_ok named) (raised_eq_ok namedSlashed)

theorem handleFilePath_of_noLinks (noLinks : manager.links = ∅) (text : Str) :
    handleFilePath crates fds manager dirfd text =
      handledName crates fds manager dirfd text := by
  have realPathEq : manager.realPath = id := by
    funext path
    apply Redirect.resolve_of_none
    rw [noLinks]
    exact Finmap.lookup_empty path
  rw [handleFilePath_eq, realPathEq]
  cases handledName crates fds manager dirfd text <;> rfl

end Paths

/-! ## The list after a run -/

section Runs

variable {FsState : Type} {crates : PathCrates FsState} {fds : FdPaths}
  {manager : LinkManager FsState} {mounted after : List MountedFs}

theorem handled_of_mountPaths {source target fsType : Except (Fault LinuxError) Str}
    {device mntDir : Str}
    (paths : mountPaths crates fds manager source target fsType = .ok (device, mntDir)) :
    ∃ text, handleFilePath crates fds manager atFdcwd text = .ok mntDir := by
  obtain ⟨sourceText, -, paths⟩ := bind_eq_ok_iff.mp paths
  obtain ⟨targetText, -, paths⟩ := bind_eq_ok_iff.mp paths
  obtain ⟨fsTypeText, -, paths⟩ := bind_eq_ok_iff.mp paths
  obtain ⟨devicePath, -, paths⟩ := bind_eq_ok_iff.mp paths
  obtain ⟨mountPath, handled, paths⟩ := bind_eq_ok_iff.mp paths
  split at paths
  · cases paths
  · split at paths
    · cases paths
    · obtain ⟨-, rfl⟩ := Prod.mk.inj (Except.ok.inj paths)
      exact ⟨targetText, handled⟩

theorem sysMount_eq_ok {source target fsType : Except (Fault LinuxError) Str} {result : Nat}
    (run : sysMount crates fds manager mounted source target fsType = (.ok result, after)) :
    ∃ device mntDir, mountPaths crates fds manager source target fsType = .ok (device, mntDir) ∧
      checkMounted mounted mntDir = false ∧
      crates.absolutePathExists manager.fs mntDir = true ∧
      result = 0 ∧ after = mounted ++ [⟨device, mntDir⟩] := by
  unfold sysMount at run
  split at run
  · cases run
  · next device mntDir paths =>
      split at run
      · cases run
      · next unmounted =>
          split at run
          · next present =>
              obtain ⟨isResult, isAfter⟩ := Prod.mk.inj run
              exact ⟨device, mntDir, paths, Bool.eq_false_iff.mpr unmounted,
                  present, (Except.ok.inj isResult).symm, isAfter.symm⟩
          · cases run

theorem sysUmount2_eq_ok {target : Except (Fault LinuxError) Str} {flags : Int} {result : Nat}
    (run : sysUmount2 crates fds manager mounted target flags = (.ok result, after)) :
    ∃ mntDir, umountPath crates fds manager target flags = .ok mntDir ∧
      umountFatFs mounted mntDir = (true, after) ∧ result = 0 := by
  unfold sysUmount2 at run
  split at run
  · cases run
  · next mntDir path =>
      obtain ⟨isResult, isAfter⟩ := Prod.mk.inj run
      split at isResult
      · next removed =>
          refine ⟨mntDir, path, ?_, (Except.ok.inj isResult).symm⟩
          rw [← removed, ← isAfter]
          rfl
      · cases isResult

theorem exec_of_run {call : MountCall FsState} {result : Nat}
    (run : call.run crates mounted = (.ok result, after))
    (calls : List MountPhase) :
    ∃ actions,
      (mountMachine crates).exec ⟨mounted, calls⟩ actions =
        some ⟨after, calls ++ [.returned (.ok result)]⟩ := by
  cases call with
  | mount fds manager source target fsType =>
      obtain ⟨device, mntDir, paths, unmounted, present, rfl, rfl⟩ := sysMount_eq_ok run
      refine ⟨[.mount fds manager source target fsType, .check calls.length,
          .push calls.length manager.fs], ?_⟩
      simp [Machine.exec, mountMachine, mountNext, paths, unmounted, present,
        MountState.startCall, MountState.setCall]
  | umount2 fds manager target flags =>
      obtain ⟨mntDir, path, removed, rfl⟩ := sysUmount2_eq_ok run
      refine ⟨[.umount2 fds manager target flags, .retain calls.length], ?_⟩
      simp [Machine.exec, mountMachine, mountNext, path, removed,
        MountState.startCall, MountState.setCall]

theorem recorded_concat (records : List MountRecord) (entry : MountedFs) (dir : Option (List Str)) :
    recorded records (entries records ++ [entry]) dir =
      records ++ [⟨entry, dir⟩] := by
  have allKept :
      records.filter (fun record => record.toMountedFs ∈ entries records ++ [entry]) =
        records := by
    refine List.filter_eq_self.mpr fun record member => ?_
    refine decide_eq_true (List.mem_append_left _ ?_)
    exact List.mem_map_of_mem member
  have oneNew : (entries records ++ [entry]).drop records.length = [entry] := by
    rw [← List.length_map MountRecord.toMountedFs]
    exact List.drop_left
  rw [recorded, allKept, oneNew]
  rfl

theorem entries_recorded_filter (records : List MountRecord) (keep : MountedFs → Bool)
    (dir : Option (List Str)) :
    entries (recorded records ((entries records).filter keep) dir) =
      (entries records).filter keep := by
  have noneNew : ((entries records).filter keep).drop records.length = [] := by
    refine List.drop_eq_nil_of_le ?_
    rw [← List.length_map MountRecord.toMountedFs]
    exact List.length_filter_le keep _
  have sameKept : records.filter (fun record =>
            record.toMountedFs ∈ (entries records).filter keep) =
        records.filter (keep ∘ MountRecord.toMountedFs) := by
    refine List.filter_congr fun record member => ?_
    have isEntry : record.toMountedFs ∈ entries records := List.mem_map_of_mem member
    simp [List.mem_filter, isEntry]
  rw [recorded, noneNew, sameKept, List.map_nil, List.append_nil]
  exact List.filter_map.symm

theorem run_of_next {records target : List MountRecord} {call : MountCall FsState}
    (stepped : (mountCallMachine crates).next records call = some target) :
    ∃ result, call.run crates (entries records) = (.ok result, entries target) := by
  change
    (match call.run crates (entries records) with
      | (.ok _, after) => some (recorded records after (call.dir crates))
      | (.error _, _) => none) = some target at stepped
  split at stepped
  · next result after run =>
      obtain rfl := Option.some.inj stepped
      refine ⟨result, ?_⟩
      rw [run]
      cases call with
      | mount fds manager source target fsType =>
          obtain ⟨device, mntDir, -, -, -, -, rfl⟩ := sysMount_eq_ok run
          rw [recorded_concat, entries, entries, List.map_append]
          rfl
      | umount2 fds manager target flags =>
          obtain ⟨mntDir, -, removed, -⟩ := sysUmount2_eq_ok run
          obtain ⟨-, rfl⟩ := Prod.mk.inj removed
          rw [entries_recorded_filter]
  · cases stepped

theorem normal_of_reachable (canonicalPaths : CanonicalPaths crates) {records : List MountRecord}
    (reached : (mountCallMachine crates).ReachableWithin (fun _ call => call.NoLinks) records) :
    ∀ entry ∈ entries records, Separated.Normal '/' entry.mntDir := by
  refine @Machine.ReachableWithin.invariant _ _ _ _ (fun records : List MountRecord =>
        ∀ entry ∈ entries records, Separated.Normal '/' entry.mntDir)
      ?_ ?_ _ reached
  · rintro start rfl entry member
    cases member
  · intro source call target _ normal noLinks stepped
    obtain ⟨result, run⟩ := run_of_next stepped
    cases call with
    | mount fds manager text dir fsType =>
        obtain ⟨device, mntDir, paths, -, -, -, isAfter⟩ := sysMount_eq_ok run
        rw [isAfter]
        apply Roster.forall_mem_concat normal
        obtain ⟨text, handled⟩ := handled_of_mountPaths paths
        rw [handleFilePath_of_noLinks noLinks] at handled
        exact normal_of_handledName canonicalPaths handled
    | umount2 fds manager dir flags =>
        obtain ⟨mntDir, -, removed, -⟩ := sysUmount2_eq_ok run
        obtain ⟨-, isAfter⟩ := Prod.mk.inj removed
        intro entry member
        rw [← isAfter] at member
        exact normal entry (List.mem_of_mem_filter member)

end Runs

/-! ## Answers and spellings -/

section Answers

variable {FsState : Type} {crates : PathCrates FsState} {fds : FdPaths}
  {manager : LinkManager FsState} {records : List MountRecord}
  {dir : List Str} {text path : Str}

theorem checkMounted_iff : checkMounted (entries records) path = true ↔ HasStart records path := by
  simp [checkMounted, entries, HasStart, List.any_eq_true]

theorem sysUmount2_ok_iff (handled : handleFilePath crates fds manager atFdcwd text = .ok path)
    (present : crates.absolutePathExists manager.fs path = true) :
    (sysUmount2 crates fds manager (entries records) (.ok text) 0).1 = .ok 0 ↔
      HasText records path := by
  have isPath : umountPath crates fds manager (.ok text) 0 = .ok path := by
    refine bind_eq_ok_iff.mpr ⟨text, rfl, ?_⟩
    refine bind_eq_ok_iff.mpr ⟨path, handled, ?_⟩
    rw [if_neg (by simp), if_neg (by simp [present])]
    rfl
  have removes :
      (umountFatFs (entries records) path).1 = true ↔
        HasText records path := by
    rw [umountFatFs, decide_eq_true_iff, List.length_filter_lt_length_iff_exists]
    simp [entries, HasText]
  rw [sysUmount2, isPath, ← removes]
  cases removed : (umountFatFs (entries records) path).1 with
  | true => simp [removed]
  | false => simp [removed]

theorem followsTree_iff (handled : handleFilePath crates fds manager atFdcwd text = .ok path)
    (present : crates.absolutePathExists manager.fs path = true) :
    FollowsTree crates fds manager records dir text path ↔
      (HasStart records path ↔ Below records dir) ∧
      (HasText records path ↔ IsMounted records dir) := by
  have umounts := @sysUmount2_ok_iff _ _ _ _ records _ _ handled present
  constructor
  · rintro ⟨check, umount⟩
    exact ⟨checkMounted_iff.symm.trans check, umounts.symm.trans umount⟩
  · rintro ⟨check, umount⟩
    exact ⟨checkMounted_iff.trans check, umounts.trans umount⟩

theorem hasStart_of_hasText (found : HasText records path) :
    HasStart records path := by
  obtain ⟨record, member, rfl⟩ := found
  exact ⟨record, member, List.prefix_rfl⟩

theorem below_of_isMounted (isMounted : IsMounted records dir) :
    Below records dir := by
  obtain ⟨record, member, isDir⟩ := isMounted
  exact ⟨record, member, dir, isDir, List.prefix_rfl⟩

theorem Untrimmed.isMounted_of_hasText (untrimmed : Untrimmed records dir path) {spelled : Str}
    (sameNames : components spelled = components path)
    (found : HasText records spelled) : IsMounted records dir := by
  obtain ⟨record, member, rfl⟩ := found
  refine ⟨record, member, ?_⟩
  rw [untrimmed.mounted record member, sameNames, ← untrimmed.asked]

theorem Untrimmed.hasStart_of_below (untrimmed : Untrimmed records dir path)
    (normal : ∀ entry ∈ entries records, Separated.Normal '/' entry.mntDir)
    (pathNormal : Separated.Normal '/' path)
    (sameText : IsMounted records dir → HasText records path)
    (below : Below records dir) : HasStart records path := by
  obtain ⟨record, member, above, isAbove, within⟩ := below
  by_cases same : above = dir
  · rw [same] at isAbove
    exact hasStart_of_hasText (sameText ⟨record, member, isAbove⟩)
  · have isText := Option.some.inj (isAbove.symm.trans (untrimmed.mounted record member))
    rw [isText, untrimmed.asked] at within same
    refine ⟨record, member, ?_⟩
    exact Separated.isPrefix_of_components
        (normal _ (List.mem_map_of_mem member)) pathNormal within same

end Answers

/-- After every run of successful calls without links, the calls answer for an
existing directory under both of its spellings exactly if the texts of the
entries tell where it is. -/
theorem mount_follows_tree_iff {FsState : Type} {crates : PathCrates FsState}
    (canonicalPaths : CanonicalPaths crates) {records : List MountRecord}
    (reached : (mountCallMachine crates).ReachableWithin (fun _ call => call.NoLinks) records)
    {fds : FdPaths} {manager : LinkManager FsState}
    (noLinks : manager.links = ∅) {text path slashed : Str}
    {dir : List Str} (denotes : denoted crates manager.fs text = some dir)
    (nonempty : text ≠ []) (notDir : isDir text = false)
    (handled : handleFilePath crates fds manager atFdcwd text = .ok path)
    (handledSlashed : handleFilePath crates fds manager atFdcwd (text ++ ['/']) = .ok slashed)
    (present : crates.absolutePathExists manager.fs path = true)
    (presentSlashed : crates.absolutePathExists manager.fs slashed = true) :
    (denoted crates manager.fs (text ++ ['/']) = some dir ∧
      FollowsTree crates fds manager records dir text path ∧
      FollowsTree crates fds manager records dir (text ++ ['/']) slashed) ↔
    TextsTell records dir path slashed := by
  have normal := normal_of_reachable canonicalPaths reached
  have denotesSlashed : denoted crates manager.fs (text ++ ['/']) = some dir := by
    rw [denoted, canonicalPaths.slash _ _ nonempty notDir]
    exact denotes
  have named := handled
  have namedSlashed := handledSlashed
  rw [handleFilePath_of_noLinks noLinks] at named namedSlashed
  have pathNormal := normal_of_handledName canonicalPaths named
  have spellings := handledName_append_slash canonicalPaths nonempty notDir named namedSlashed
  have sameNames : components slashed = components path := by
    rcases spellings with rfl | rfl
    · rfl
    · exact Separated.components_append_sep path
  have longer : HasStart records path → HasStart records slashed := by
    rintro ⟨record, member, starts⟩
    refine ⟨record, member, starts.trans ?_⟩
    rcases spellings with rfl | rfl
    · exact List.prefix_rfl
    · exact List.prefix_append _ _
  have shorter :
      HasStart records slashed →
        HasText records slashed ∨ HasStart records path := by
    rintro ⟨record, member, starts⟩
    rcases spellings with rfl | rfl
    · exact .inr ⟨record, member, starts⟩
    · rcases List.prefix_concat_iff.mp starts with same | within
      · exact .inl ⟨record, member, same⟩
      · exact .inr ⟨record, member, within⟩
  rw [followsTree_iff handled present, followsTree_iff handledSlashed presentSlashed]
  constructor
  · rintro ⟨-, ⟨check, umount⟩, -, umountSlashed⟩
    exact
      { mounted := fun isMounted =>
          ⟨umount.mpr isMounted, umountSlashed.mpr isMounted⟩
        apart := mt check.mp
        trimmed := fun _ =>
          ⟨fun notMounted =>
              ⟨mt umount.mp notMounted, mt umountSlashed.mp notMounted⟩,
            check.mpr⟩ }
  · intro tell
    have isMountedOf :
        HasText records path ∨ HasText records slashed →
          IsMounted records dir := by
      intro found
      by_cases untrimmed : Untrimmed records dir path
      · rcases found with plain | withSlash
        · exact untrimmed.isMounted_of_hasText rfl plain
        · exact untrimmed.isMounted_of_hasText sameNames withSlash
      · by_contra notMounted
        obtain ⟨noPlain, noSlashed⟩ := (tell.trimmed untrimmed).1 notMounted
        exact found.elim noPlain noSlashed
    have startOf : Below records dir → HasStart records path := by
      intro below
      by_cases untrimmed : Untrimmed records dir path
      · exact untrimmed.hasStart_of_below normal pathNormal
            (fun isMounted => (tell.mounted isMounted).1) below
      · exact (tell.trimmed untrimmed).2 below
    have belowOf : HasStart records path → Below records dir := by
      intro starts
      by_contra notBelow
      exact tell.apart notBelow starts
    refine ⟨denotesSlashed,
        ⟨⟨belowOf, startOf⟩, fun found => isMountedOf (.inl found),
          fun isMounted => (tell.mounted isMounted).1⟩,
        ⟨?_, fun below => longer (startOf below)⟩,
        fun found => isMountedOf (.inr found),
        fun isMounted => (tell.mounted isMounted).2⟩
    intro starts
    rcases shorter starts with found | within
    · exact below_of_isMounted (isMountedOf (.inr found))
    · exact belowOf within

/-! ## Runs on a small tree -/

/-- Paths in a list of files; `canonicalize` takes a slash off their ends. -/
def treeCrates : PathCrates (List Str) :=
  { listCrates with
    canonicalize := fun _ text =>
      if Separated.Normal '/' text then
        .ok (if isDir text && text != ['/'] then text.dropLast else text)
      else .error .InvalidInput }

theorem canonicalPaths_treeCrates : CanonicalPaths treeCrates where
  normal _ text canonical found := by
    change
      (if Separated.Normal '/' text then
          Except.ok (if isDir text && text != ['/'] then text.dropLast else text)
        else .error AxError.InvalidInput) = .ok canonical at found
    split at found
    · next normal =>
        obtain rfl := Except.ok.inj found
        split
        · next slashed =>
            have within := List.dropLast_prefix text
            refine normal.of_isPrefix ?_ within
            have starts := normal.starts
            rcases text with _ | ⟨first, _ | ⟨second, rest⟩⟩
            · cases starts
            · obtain rfl := Option.some.inj starts
              simp at slashed
            · exact starts
        · exact normal
    · cases found
  slash _ text nonempty notDir := by
    have isOpen : text.getLast? ≠ some '/' := by
      simpa [isDir] using notDir
    have slashedDir : isDir (text ++ ['/']) = true := by
      simp [isDir]
    have notRoot : (text ++ ['/'] != ['/']) = true := by
      simpa using nonempty
    have normalIff : Separated.Normal '/' (text ++ ['/']) ↔ Separated.Normal '/' text := by
      constructor
      · intro normal
        refine normal.of_isPrefix ?_ (List.prefix_append _ _)
        rw [← normal.starts, List.head?_append_of_ne_nil _ nonempty]
      · intro normal
        exact normal.append_sep isOpen
    change
      (if Separated.Normal '/' (text ++ ['/']) then
          Except.ok
            (if isDir (text ++ ['/']) && text ++ ['/'] != ['/'] then
              (text ++ ['/']).dropLast
            else text ++ ['/'])
        else .error AxError.InvalidInput) =
        if Separated.Normal '/' text then
          Except.ok (if isDir text && text != ['/'] then text.dropLast else text)
        else .error AxError.InvalidInput
    simp only [normalIff, slashedDir, notRoot, notDir, Bool.and_self,
      if_true, List.dropLast_concat, Bool.false_and, Bool.false_eq_true,
      if_false]

/-- The directories `/a`, `/ab` and `/a/b`, and no links. -/
def smallTree : LinkManager (List Str) where
  fs :=
    [Str.lit "/a", Str.lit "/a/", Str.lit "/ab", Str.lit "/ab/", Str.lit "/a/b", Str.lit "/a/b/"]
  links := ∅
  refCounts := ∅
  unlinked := ∅
  removeCall := none

def mountAt (target : String) : MountCall (List Str) :=
  .mount noFds smallTree (.ok (Str.lit "/ab")) (.ok (Str.lit target)) (.ok (Str.lit "vfat"))

def umountAt (target : String) : MountCall (List Str) :=
  .umount2 noFds smallTree (.ok (Str.lit target)) 0

/-- A mount of `/ab` with its text and its directory. -/
def recordOf (mntDir name : String) : MountRecord :=
  ⟨⟨Str.lit "/ab", Str.lit mntDir⟩, some [Str.lit name]⟩

theorem reachable_run {calls : List (MountCall (List Str))} {records : List MountRecord}
    (noLinks : ∀ call ∈ calls, call.NoLinks)
    (executed : (mountCallMachine treeCrates).exec [] calls = some records) :
    (mountCallMachine treeCrates).ReachableWithin (fun _ call => call.NoLinks) records :=
  Machine.ReachableWithin.exec (.start rfl)
    (Machine.meets_of_forall [] fun call member _ => noLinks call member)
    executed

theorem reachable_both_spellings :
    (mountCallMachine treeCrates).ReachableWithin
      (fun _ call => call.NoLinks) [recordOf "/a/" "a", recordOf "/a" "a"] := by
  refine @reachable_run [mountAt "/ab", mountAt "/a/", mountAt "/a", umountAt "/ab"] _ ?_
      (by decide +kernel)
  simp [mountAt, umountAt, MountCall.NoLinks, smallTree]

/-- With both of its texts in the list, `/a` gets the right answers under
both. -/
theorem mount_follows_tree_iff_both :
    IsMounted [recordOf "/a/" "a", recordOf "/a" "a"] [Str.lit "a"] ∧
      FollowsTree treeCrates noFds smallTree [recordOf "/a/" "a", recordOf "/a" "a"] [Str.lit "a"]
        (Str.lit "/a") (Str.lit "/a") ∧
      FollowsTree treeCrates noFds smallTree [recordOf "/a/" "a", recordOf "/a" "a"] [Str.lit "a"]
        (Str.lit "/a/") (Str.lit "/a/") := by
  have isMounted :
      IsMounted [recordOf "/a/" "a", recordOf "/a" "a"] [Str.lit "a"] :=
    ⟨_, List.mem_cons_self, rfl⟩
  have below := below_of_isMounted isMounted
  have hasPlain : HasText [recordOf "/a/" "a", recordOf "/a" "a"] (Str.lit "/a") :=
    ⟨recordOf "/a" "a", by simp, rfl⟩
  have hasSlashed : HasText [recordOf "/a/" "a", recordOf "/a" "a"] (Str.lit "/a/") :=
    ⟨_, List.mem_cons_self, rfl⟩
  have follows := @mount_follows_tree_iff _ treeCrates canonicalPaths_treeCrates _
      reachable_both_spellings noFds smallTree rfl (Str.lit "/a")
      (Str.lit "/a") (Str.lit "/a/") [Str.lit "a"] (by decide +kernel)
      (by decide) (by decide) (by decide +kernel) (by decide +kernel)
      (by decide +kernel) (by decide +kernel)
  refine ⟨isMounted, (follows.mpr ?_).2⟩
  exact
    { mounted := fun _ => ⟨hasPlain, hasSlashed⟩
      apart := fun notBelow => absurd below notBelow
      trimmed := fun _ =>
        ⟨fun notMounted => absurd isMounted notMounted, fun _ => hasStart_of_hasText hasPlain⟩ }

/-- With `/a` mounted, `/ab` counts as mounted, and so does a directory whose
name is `a` and a space, which can even be unmounted; with `/a/` mounted, `/a`
does not count as mounted and cannot be unmounted. -/
theorem mount_follows_spelling :
    ((mountCallMachine treeCrates).ReachableWithin
        (fun _ call => call.NoLinks) [recordOf "/a" "a"] ∧
      checkMounted (entries [recordOf "/a" "a"]) (Str.lit "/ab") = true ∧
      ¬ Below [recordOf "/a" "a"] [Str.lit "ab"] ∧
      handleFilePath treeCrates noFds smallTree atFdcwd (Str.lit "/a ") = .ok (Str.lit "/a") ∧
      denoted treeCrates smallTree.fs (Str.lit "/a ") = some [Str.lit "a "] ∧
      (sysUmount2 treeCrates noFds smallTree (entries [recordOf "/a" "a"])
        (.ok (Str.lit "/a ")) 0).1 = .ok 0 ∧
      ¬ Below [recordOf "/a" "a"] [Str.lit "a "]) ∧
    (mountCallMachine treeCrates).ReachableWithin
        (fun _ call => call.NoLinks) [recordOf "/a/" "a"] ∧
      IsMounted [recordOf "/a/" "a"] [Str.lit "a"] ∧
      checkMounted (entries [recordOf "/a/" "a"]) (Str.lit "/a") = false ∧
      (sysUmount2 treeCrates noFds smallTree (entries [recordOf "/a/" "a"])
        (.ok (Str.lit "/a")) 0).1 = .error (.err .EPERM) ∧
      (sysUmount2 treeCrates noFds smallTree (entries [recordOf "/a/" "a"])
        (.ok (Str.lit "/a/")) 0).1 = .ok 0 := by
  have onlyA :
      ∀ name, [Str.lit "a"] ≠ [Str.lit name] → ¬ Below [recordOf "/a" "a"] [Str.lit name] := by
    rintro name different ⟨record, member, above, isAbove, within⟩
    obtain rfl := List.mem_singleton.mp member
    obtain rfl := Option.some.inj isAbove
    exact different (within.eq_of_length rfl)
  refine ⟨⟨@reachable_run [mountAt "/a"] _ ?_ (by decide +kernel),
        by decide +kernel, onlyA "ab" (by decide), by decide +kernel,
        by decide +kernel, by decide +kernel, onlyA "a " (by decide)⟩,
      @reachable_run [mountAt "/a/"] _ ?_ (by decide +kernel),
      ⟨_, List.mem_singleton_self _, rfl⟩, by decide +kernel,
      by decide +kernel, by decide +kernel⟩
  · simp [mountAt, MountCall.NoLinks, smallTree]
  · simp [mountAt, MountCall.NoLinks, smallTree]

end Vegar.Fs

import Vegar.Lib.Machine
import Vegar.Lib.Roster
import Vegar.Path.Linkat

/-!
# Mounted file systems

`sys_mount` and `sys_umount2` of `api/src/imp/fs/mount.rs`, by any number of
callers.  The list of mounted file systems is locked once for the check that
a directory is not mounted, and again for the new entry; between the two
another caller can mount the same directory.
-/

namespace Vegar.Fs

open Vegar.Lib Vegar.Path

/-- `MountedFs`. -/
structure MountedFs where
  device : Str
  mntDir : Str
  deriving DecidableEq, Repr

/-- `check_mounted`. -/
def checkMounted (mounted : List MountedFs) (path : Str) : Bool :=
  mounted.any fun entry => entry.mntDir.isPrefixOf path

/-- `umount_fat_fs`: whether an entry was removed, and the list after it. -/
def umountFatFs (mounted : List MountedFs) (path : Str) :
    Bool × List MountedFs :=
  let retained := mounted.filter fun entry => entry.mntDir ≠ path
  (retained.length < mounted.length, retained)

section Calls

variable {FsState : Type} (crates : PathCrates FsState) (fds : FdPaths)
  (manager : LinkManager FsState)

/-- `sys_mount` up to the check that the directory is not mounted: the device
and the directory.  The arguments are what `get_as_str` returned for them. -/
def mountPaths (source target fsType : Except (Fault LinuxError) Str) :
    Except (Fault LinuxError) (Str × Str) := do
  let source ← source
  let target ← target
  let fsType ← fsType
  let devicePath ← handleFilePath crates fds manager atFdcwd source
  let mountPath ← handleFilePath crates fds manager atFdcwd target
  if fsType ≠ Str.lit "vfat" then throw (.err .EPERM)
  else if ¬ crates.absolutePathExists manager.fs mountPath then
    throw (.err .EPERM)
  else return (devicePath, mountPath)

/-- `sys_umount2` up to the removal of the entry: the directory. -/
def umountPath (target : Except (Fault LinuxError) Str) (flags : Int) :
    Except (Fault LinuxError) Str := do
  let target ← target
  let mountPath ← handleFilePath crates fds manager atFdcwd target
  if flags ≠ 0 then throw (.err .EPERM)
  else if ¬ crates.absolutePathExists manager.fs mountPath then
    throw (.err .EPERM)
  else return mountPath

end Calls

inductive MountPhase where
  /-- Before `check_mounted`. -/
  | mounting (device mntDir : Str)
  /-- Before the entry is added. -/
  | checked (device mntDir : Str)
  /-- Before `umount_fat_fs`. -/
  | unmounting (mntDir : Str)
  | returned (result : Except (Fault LinuxError) Nat)
  deriving DecidableEq

/-- `MOUNTED`, and the calls in the order they start. -/
structure MountState where
  mounted : List MountedFs
  calls : List MountPhase
  deriving DecidableEq

inductive MountAction (FsState : Type) where
  | mount (fds : FdPaths) (manager : LinkManager FsState)
      (source target fsType : Except (Fault LinuxError) Str)
  | umount2 (fds : FdPaths) (manager : LinkManager FsState)
      (target : Except (Fault LinuxError) Str) (flags : Int)
  | check (index : Nat)
  | push (index : Nat) (fs : FsState)
  | retain (index : Nat)

namespace MountState

def startCall (state : MountState) (phase : MountPhase) : MountState :=
  { state with calls := state.calls ++ [phase] }

def setCall (state : MountState) (index : Nat) (phase : MountPhase) :
    MountState :=
  { state with calls := state.calls.set index phase }

end MountState

section Machine

variable {FsState : Type} (crates : PathCrates FsState)

def mountNext (state : MountState) : MountAction FsState → Option MountState
  | .mount fds manager source target fsType =>
      match mountPaths crates fds manager source target fsType with
      | .error fault => some (state.startCall (.returned (.error fault)))
      | .ok (device, mntDir) =>
          some (state.startCall (.mounting device mntDir))
  | .umount2 fds manager target flags =>
      match umountPath crates fds manager target flags with
      | .error fault => some (state.startCall (.returned (.error fault)))
      | .ok mntDir => some (state.startCall (.unmounting mntDir))
  | .check index =>
      match state.calls[index]? with
      | some (.mounting device mntDir) =>
          if checkMounted state.mounted mntDir then
            some (state.setCall index (.returned (.error (.err .EPERM))))
          else some (state.setCall index (.checked device mntDir))
      | _ => none
  | .push index fs =>
      match state.calls[index]? with
      | some (.checked device mntDir) =>
          if crates.absolutePathExists fs mntDir then
            some { state.setCall index (.returned (.ok 0)) with
              mounted := state.mounted ++ [⟨device, mntDir⟩] }
          else some (state.setCall index (.returned (.error (.err .EPERM))))
      | _ => none
  | .retain index =>
      match state.calls[index]? with
      | some (.unmounting mntDir) =>
          let (removed, mounted) := umountFatFs state.mounted mntDir
          some { state.setCall index (.returned (if removed then .ok 0 else .error (.err .EPERM)))
            with mounted := mounted }
      | _ => none

def mountMachine : Machine MountState (MountAction FsState) where
  start state := state.mounted = [] ∧ state.calls = []
  next := mountNext crates

end Machine

def MountedOnce (mounted : List MountedFs) : Prop := (mounted.map MountedFs.mntDir).Nodup

instance (mounted : List MountedFs) : Decidable (MountedOnce mounted) :=
  inferInstanceAs (Decidable (List.Nodup _))

def PushesAlone {FsState : Type} (state : MountState) : MountAction FsState → Prop
  | .push index _ =>
      ∀ device mntDir, state.calls[index]? = some (.checked device mntDir) →
        ∀ other otherDevice, other ≠ index →
          state.calls[other]? ≠ some (.checked otherDevice mntDir)
  | _ => True

def MountPhase.checkedDir : MountPhase → Option Str
  | checked _ mntDir => some mntDir
  | _ => none

theorem MountPhase.checkedDir_eq_some_iff {phase : MountPhase} {mntDir : Str} :
    phase.checkedDir = some mntDir ↔ ∃ device, phase = .checked device mntDir := by
  cases phase <;> simp [checkedDir]

theorem pushesAlone_push_iff {FsState : Type} {state : MountState} {index : Nat} {fs : FsState} :
    PushesAlone state (.push index fs) ↔
      ∀ mntDir ∈ state.calls[index]?.bind MountPhase.checkedDir,
        ∀ other < state.calls.length, other ≠ index →
          state.calls[other]?.bind MountPhase.checkedDir ≠ some mntDir := by
  have checkedAt :
      ∀ (position : Nat) (mntDir : Str),
        state.calls[position]?.bind MountPhase.checkedDir = some mntDir ↔
          ∃ device, state.calls[position]? = some (.checked device mntDir) := by
    intro position mntDir
    simp only [Option.bind_eq_some_iff, MountPhase.checkedDir_eq_some_iff]
    constructor
    · rintro ⟨phase, found, device, rfl⟩
      exact ⟨device, found⟩
    · rintro ⟨device, found⟩
      exact ⟨_, found, device, rfl⟩
  constructor
  · intro alone mntDir isChecked other _ different also
    obtain ⟨device, found⟩ := (checkedAt index mntDir).mp isChecked
    obtain ⟨otherDevice, alsoFound⟩ := (checkedAt other mntDir).mp also
    exact alone device mntDir found other otherDevice different alsoFound
  · intro alone device mntDir found other otherDevice different alsoFound
    obtain ⟨within, -⟩ := List.getElem?_eq_some_iff.mp alsoFound
    exact alone mntDir ((checkedAt index mntDir).mpr ⟨device, found⟩) other within
        different ((checkedAt other mntDir).mpr ⟨otherDevice, alsoFound⟩)

instance {FsState : Type} (state : MountState) :
    (action : MountAction FsState) → Decidable (PushesAlone state action)
  | .push _ _ => decidable_of_iff _ pushesAlone_push_iff.symm
  | .mount .. => isTrue trivial
  | .umount2 .. => isTrue trivial
  | .check _ => isTrue trivial
  | .retain _ => isTrue trivial

/-! ## Directories that are mounted once -/

theorem mntDir_not_mem_of_checkMounted {mounted : List MountedFs} {path : Str}
    (unmounted : checkMounted mounted path = false) :
    path ∉ mounted.map MountedFs.mntDir := by
  intro member
  obtain ⟨entry, isEntry, rfl⟩ := List.mem_map.mp member
  have covered := List.any_eq_false.mp unmounted entry isEntry
  exact covered (by simp)

theorem length_of_umountFatFs {mounted after : List MountedFs} {path : Str}
    (once : MountedOnce mounted)
    (removed : umountFatFs mounted path = (true, after)) :
    after.length + 1 = mounted.length := by
  obtain ⟨shorter, rfl⟩ := Prod.mk.inj removed
  have shorter := of_decide_eq_true shorter
  have atMostOne : mounted.countP (fun entry => entry.mntDir == path) ≤ 1 := by
    have once := List.nodup_iff_count_le_one.mp once path
    rwa [List.count_eq_countP, List.countP_map] at once
  have parts :
      mounted.length =
        mounted.countP (fun entry => entry.mntDir == path) +
          (mounted.filter fun entry => entry.mntDir ≠ path).length := by
    rw [List.length_eq_countP_add_countP fun entry : MountedFs =>
      entry.mntDir == path, ← List.countP_eq_length_filter]
    simp
  omega

structure MountInvariant (state : MountState) : Prop where
  once : MountedOnce state.mounted
  free :
    ∀ (index : Nat) (device mntDir : Str),
      state.calls[index]? = some (.checked device mntDir) →
        mntDir ∉ state.mounted.map MountedFs.mntDir

section Runs

variable {FsState : Type} {crates : PathCrates FsState} {state : MountState}

theorem MountInvariant.startCall (holds : MountInvariant state) {phase : MountPhase}
    (unchecked : ∀ device mntDir, phase ≠ .checked device mntDir) :
    MountInvariant (state.startCall phase) := by
  refine ⟨holds.once, ?_⟩
  intro index device mntDir found
  rcases Roster.old_or_added found with old | ⟨-, same⟩
  · exact holds.free index device mntDir old
  · exact (unchecked device mntDir same.symm).elim

theorem MountInvariant.setCall (holds : MountInvariant state) {index : Nat} {phase : MountPhase}
    {mounted : List MountedFs}
    (fewer : mounted.Sublist state.mounted)
    (free : ∀ device mntDir, phase = .checked device mntDir →
      mntDir ∉ state.mounted.map MountedFs.mntDir) :
    MountInvariant { state.setCall index phase with mounted := mounted } := by
  have sublist := fewer.map MountedFs.mntDir
  refine ⟨holds.once.sublist sublist, ?_⟩
  intro other device mntDir found member
  have before := sublist.subset member
  rw [MountState.setCall, List.getElem?_set] at found
  split at found
  · obtain ⟨-, same⟩ := Option.ite_none_right_eq_some.mp found
    exact free device mntDir (Option.some.inj same) before
  · exact holds.free other device mntDir found before

theorem mountInvariant_push (holds : MountInvariant state) {index : Nat} {device mntDir : Str}
    (isChecked : state.calls[index]? = some (.checked device mntDir))
    (alone : ∀ other otherDevice, other ≠ index →
      state.calls[other]? ≠ some (.checked otherDevice mntDir)) :
    MountInvariant
      { state.setCall index (.returned (.ok 0)) with
        mounted := state.mounted ++ [⟨device, mntDir⟩] } := by
  have isFree := holds.free index device mntDir isChecked
  constructor
  · rw [MountedOnce, List.map_append, List.nodup_append]
    refine ⟨holds.once, by simp, ?_⟩
    rintro left member right isNew rfl
    obtain rfl := List.mem_singleton.mp isNew
    exact isFree member
  · intro other otherDevice otherDir found member
    rw [MountState.setCall, List.getElem?_set] at found
    split at found
    · obtain ⟨-, same⟩ := Option.ite_none_right_eq_some.mp found
      cases same
    · next different =>
        rw [List.map_append, List.mem_append] at member
        rcases member with before | new
        · exact holds.free other otherDevice otherDir found before
        · obtain rfl := List.mem_singleton.mp new
          exact alone other otherDevice (Ne.symm different) found

theorem mountInvariant_next {target : MountState} (action : MountAction FsState)
    (holds : MountInvariant state) (alone : PushesAlone state action)
    (stepped : mountNext crates state action = some target) :
    MountInvariant target := by
  cases action with
  | mount fds manager source dir fsType =>
      simp only [mountNext] at stepped
      split at stepped
      · obtain rfl := Option.some.inj stepped
        exact holds.startCall (by simp)
      · obtain rfl := Option.some.inj stepped
        exact holds.startCall (by simp)
  | umount2 fds manager dir flags =>
      simp only [mountNext] at stepped
      split at stepped
      · obtain rfl := Option.some.inj stepped
        exact holds.startCall (by simp)
      · obtain rfl := Option.some.inj stepped
        exact holds.startCall (by simp)
  | check index =>
      simp only [mountNext] at stepped
      split at stepped
      · split at stepped
        · obtain rfl := Option.some.inj stepped
          exact holds.setCall (List.Sublist.refl _) nofun
        · next unmounted =>
            obtain rfl := Option.some.inj stepped
            apply holds.setCall (List.Sublist.refl _)
            rintro device mntDir ⟨⟩
            exact mntDir_not_mem_of_checkMounted (Bool.eq_false_iff.mpr unmounted)
      · cases stepped
  | push index fs =>
      simp only [mountNext] at stepped
      split at stepped
      · next device mntDir isChecked =>
          split at stepped
          · obtain rfl := Option.some.inj stepped
            exact mountInvariant_push holds isChecked (alone device mntDir isChecked)
          · obtain rfl := Option.some.inj stepped
            exact holds.setCall (List.Sublist.refl _) nofun
      · cases stepped
  | retain index =>
      simp only [mountNext] at stepped
      split at stepped
      · obtain rfl := Option.some.inj stepped
        exact holds.setCall List.filter_sublist nofun
      · cases stepped

theorem mountInvariant_of_reachable
    (reached : (mountMachine crates).ReachableWithin PushesAlone state) :
    MountInvariant state := by
  refine Machine.ReachableWithin.invariant ?_ ?_ reached
  · rintro started ⟨noMounts, noCalls⟩
    constructor
    · rw [noMounts]
      exact List.nodup_nil
    · intro index device mntDir found
      rw [noCalls] at found
      cases found
  · intro source action target _ holds alone stepped
    exact mountInvariant_next action holds alone stepped

end Runs

/-- In every interleaving in which entries are added alone, no directory is
mounted twice, and a successful removal takes exactly one entry. -/
theorem mounted_once_of_pushes_alone
    {FsState : Type} (crates : PathCrates FsState) (state : MountState)
    (reached : (mountMachine crates).ReachableWithin PushesAlone state) :
    MountedOnce state.mounted ∧
      ∀ path after, umountFatFs state.mounted path = (true, after) →
        after.length + 1 = state.mounted.length := by
  have once := (mountInvariant_of_reachable reached).once
  exact ⟨once, fun path after => length_of_umountFatFs once⟩

/-- A mount of `/d/` from any device, on a file system that has it. -/
def mountD : MountAction (List Str) :=
  .mount noFds twoDirectories (.ok (Str.lit "/e/")) (.ok (Str.lit "/d/")) (.ok (Str.lit "vfat"))

def mountE : MountAction (List Str) :=
  .mount noFds twoDirectories (.ok (Str.lit "/d/")) (.ok (Str.lit "/e/")) (.ok (Str.lit "vfat"))

def umountE : MountAction (List Str) := .umount2 noFds twoDirectories (.ok (Str.lit "/e/")) 0

/-- Two callers check before either of them adds its entry: `/d/` is mounted
twice, and one removal takes both entries. -/
theorem mount_twice_between_check_and_push :
    ∃ state, (mountMachine listCrates).Reachable state ∧ ¬ MountedOnce state.mounted ∧
      state.mounted.length = 2 ∧
      umountFatFs state.mounted (Str.lit "/d/") = (true, []) := by
  obtain ⟨state, reached, observed⟩ :=
    @Machine.exists_reachable_of_exec _ _ (mountMachine listCrates) ⟨[], []⟩
      [mountD, mountD, .check 0, .check 1, .push 0 [Str.lit "/d/"], .push 1 [Str.lit "/d/"]]
      (fun state => decide
        (¬ MountedOnce state.mounted ∧ state.mounted.length = 2 ∧
          umountFatFs state.mounted (Str.lit "/d/") = (true, [])))
      ⟨rfl, rfl⟩ (by decide +kernel)
  exact ⟨state, reached, of_decide_eq_true observed⟩

/-- Two callers mount `/d/` and `/e/` side by side, a third one is refused at
its check, and `/e/` is unmounted and mounted again. -/
def mountBoth : List (MountAction (List Str)) :=
  [mountD, mountE, .check 0, .check 1, .push 1 twoDirectories.fs, mountE,
    .push 0 twoDirectories.fs, .check 2, umountE, .retain 3, mountE,
    .check 4, .push 4 twoDirectories.fs]

theorem mounted_once_of_pushes_alone_mountBoth :
    ∃ state, (mountMachine listCrates).ReachableWithin PushesAlone state ∧
      state.mounted.map MountedFs.mntDir = [Str.lit "/d/", Str.lit "/e/"] ∧
      state.calls[2]? = some (.returned (.error (.err .EPERM))) ∧
      MountedOnce state.mounted ∧
      (umountFatFs state.mounted (Str.lit "/d/")).2.length + 1 = 2 := by
  obtain ⟨state, reached, observed⟩ :=
    @Machine.exists_reachableWithin_of_exec _ _ (mountMachine listCrates)
      PushesAlone ⟨[], []⟩ mountBoth
      (fun state => decide
        (state.mounted.map MountedFs.mntDir = [Str.lit "/d/", Str.lit "/e/"] ∧
          state.calls[2]? = some (MountPhase.returned (.error (.err .EPERM))) ∧
          (umountFatFs state.mounted (Str.lit "/d/")).1 = true))
      ⟨rfl, rfl⟩ (Machine.meets_of_checkMeets (by decide +kernel))
      (by decide +kernel)
  obtain ⟨both, refused, removes⟩ := of_decide_eq_true observed
  obtain ⟨once, takesOne⟩ := mounted_once_of_pushes_alone listCrates state reached
  have two : state.mounted.length = 2 := by
    rw [← List.length_map MountedFs.mntDir, both]
    rfl
  have removed := takesOne (Str.lit "/d/") _ (Prod.ext removes rfl)
  exact ⟨state, reached, both, refused, once, removed.trans two⟩

end Vegar.Fs

import Vegar.Lib.Machine
import Vegar.Outcome
import Vegar.Text
import Mathlib.Data.Finmap

/-!
# Hard links

`HardlinkManager` of `api/src/path.rs`.  A link is an entry from a path to
the path it stands for; a second table counts the entries of each target.
The target's own path is a name of the file too, but it is not counted.

The file system is a crate of its own; nothing is assumed about it.
-/

namespace Vegar.Path

open Vegar.Lib

/-- The functions of `axfs::api` the manager calls. -/
structure AxFs (FsState : Type) where
  absolutePathExists : FsState → Str → Bool
  removeFile : FsState → Str → AxResult Unit × FsState

/-- `LinkError`, the values that occur. -/
inductive LinkError where
  | NotFound
  | NotFile
  deriving DecidableEq, Repr

abbrev Links := Finmap fun _ : Str => Str

abbrev RefCounts := Finmap fun _ : Str => Nat

/-- The manager and the file system.  `unlinked` collects the paths passed to
`remove_link` successfully, and `removeCall` is the path the last call passed
to `remove_file`; the code has neither. -/
structure LinkManager (FsState : Type) where
  fs : FsState
  links : Links
  refCounts : RefCounts
  unlinked : Finset Str
  removeCall : Option Str

/-- `is_dir`. -/
def isDir (path : Str) : Bool := path.getLast? == some '/'

namespace LinkManager

variable {FsState : Type} (axfs : AxFs FsState)

/-- `decrease_ref_count`; both callers ignore what it returns. -/
def decreaseRefCount (manager : LinkManager FsState) (path : Str) :
    LinkManager FsState :=
  match manager.refCounts.lookup path with
  | none => manager
  | some count =>
      if count - 1 = 0 then
        { manager with
          refCounts := manager.refCounts.erase path
          fs := (axfs.removeFile manager.fs path).2
          removeCall := some path }
      else
        { manager with
          refCounts := manager.refCounts.insert path (count - 1) }

/-- The two insertions at the end of `atomic_link_update`. -/
def addLink (manager : LinkManager FsState) (src dst : Str) :
    LinkManager FsState :=
  { manager with
    links := manager.links.insert src dst
    refCounts := manager.refCounts.insert dst ((manager.refCounts.lookup dst).getD 0 + 1) }

/-- `atomic_link_update`. -/
def atomicLinkUpdate (manager : LinkManager FsState) (src dst : Str) :
    LinkManager FsState :=
  match manager.links.lookup src with
  | none => manager.addLink src dst
  | some oldDst =>
      if oldDst = dst then manager
      else (manager.decreaseRefCount axfs oldDst).addLink src dst

/-- `create_link`. -/
def createLink (manager : LinkManager FsState) (src dst : Str) :
    Except LinkError Unit × LinkManager FsState :=
  let manager := { manager with removeCall := none }
  if ¬ axfs.absolutePathExists manager.fs dst then
    (.error .NotFound, manager)
  else if ¬ isDir dst then (.error .NotFile, manager)
  else (.ok (), manager.atomicLinkUpdate axfs src dst)

/-- `remove_link`. -/
def removeLink (manager : LinkManager FsState) (src : Str) :
    Option Str × LinkManager FsState :=
  let manager := { manager with removeCall := none }
  match manager.links.lookup src with
  | some dst =>
      (some dst,
        { manager with
          links := manager.links.erase src
          unlinked := insert src manager.unlinked }.decreaseRefCount axfs dst)
  | none =>
      match axfs.removeFile manager.fs src with
      | (.ok (), fs) =>
          (some src,
            { manager with
              fs := fs
              unlinked := insert src manager.unlinked
              removeCall := some src })
      | (.error _, fs) =>
          (none, { manager with fs := fs, removeCall := some src })

/-- `link_count`. -/
def linkCount (manager : LinkManager FsState) (path : Str) : Nat :=
  (manager.refCounts.lookup path).getD (if axfs.absolutePathExists manager.fs path then 1 else 0)

end LinkManager

inductive LinkAction where
  | createLink (src dst : Str)
  | removeLink (src : Str)

def LinkManager.after {FsState : Type} (axfs : AxFs FsState)
    (manager : LinkManager FsState) : LinkAction → LinkManager FsState
  | .createLink src dst => (manager.createLink axfs src dst).2
  | .removeLink src => (manager.removeLink axfs src).2

def linkMachine {FsState : Type} (axfs : AxFs FsState) :
    Machine (LinkManager FsState) LinkAction where
  start manager :=
    manager.links = ∅ ∧ manager.refCounts = ∅ ∧ manager.unlinked = ∅ ∧ manager.removeCall = none
  next manager action := some (manager.after axfs action)

/-! ## Entries and their count -/

def linkedTo (links : Links) (target : Str) : Finset Str :=
  links.keys.filter fun src => links.lookup src = some target

@[simp]
theorem mem_linkedTo {links : Links} {target src : Str} :
    src ∈ linkedTo links target ↔ links.lookup src = some target := by
  rw [linkedTo, Finset.mem_filter, Finmap.mem_keys, Finmap.mem_iff]
  constructor
  · exact fun both => both.2
  · exact fun found => ⟨⟨target, found⟩, found⟩

theorem linkedTo_erase (links : Links) (src target : Str) :
    linkedTo (links.erase src) target = (linkedTo links target).erase src := by
  ext asked
  rw [mem_linkedTo, Finset.mem_erase, mem_linkedTo]
  by_cases same : asked = src
  · subst same
    simp
  · simp [same, Finmap.lookup_erase_ne same]

theorem linkedTo_insert_self (links : Links) (src dst : Str) :
    linkedTo (links.insert src dst) dst = insert src (linkedTo links dst) := by
  ext asked
  rw [mem_linkedTo, Finset.mem_insert, mem_linkedTo]
  by_cases same : asked = src
  · subst same
    simp
  · simp [same, Finmap.lookup_insert_of_ne _ same]

theorem linkedTo_insert_of_ne
    (links : Links) (src : Str) {dst target : Str} (different : target ≠ dst) :
    linkedTo (links.insert src dst) target = (linkedTo links target).erase src := by
  ext asked
  rw [mem_linkedTo, Finset.mem_erase, mem_linkedTo]
  by_cases same : asked = src
  · subst same
    simp [Ne.symm different]
  · simp [same, Finmap.lookup_insert_of_ne _ same]

def CountsEntries (links : Links) (refCounts : RefCounts) : Prop := ∀ target,
    refCounts.lookup target =
      if (linkedTo links target).card = 0 then none
      else some (linkedTo links target).card

theorem countsEntries_empty : CountsEntries ∅ ∅ := by
  intro target
  have nothing : linkedTo ∅ target = ∅ := by
    ext src
    simp
  rw [nothing, Finmap.lookup_empty, Finset.card_empty, if_pos rfl]

namespace LinkManager

variable {FsState : Type} {axfs : AxFs FsState} {manager : LinkManager FsState}

@[simp]
theorem decreaseRefCount_links (path : Str) :
    (manager.decreaseRefCount axfs path).links = manager.links := by
  unfold decreaseRefCount
  split
  · rfl
  · split <;> rfl

@[simp]
theorem decreaseRefCount_unlinked (path : Str) :
    (manager.decreaseRefCount axfs path).unlinked = manager.unlinked := by
  unfold decreaseRefCount
  split
  · rfl
  · split <;> rfl

/-- Dropping the entry of `src` for `dst` from the counts; it is the last one
of `dst` exactly when `remove_file` is called. -/
theorem decreaseRefCount_spec {links : Links} {src dst : Str}
    (counts : CountsEntries links manager.refCounts)
    (found : links.lookup src = some dst) :
    CountsEntries (links.erase src) (manager.decreaseRefCount axfs dst).refCounts ∧
      (manager.decreaseRefCount axfs dst).removeCall =
        if linkedTo links dst = {src} then some dst
        else manager.removeCall := by
  have member : src ∈ linkedTo links dst := mem_linkedTo.mpr found
  have positive : 0 < (linkedTo links dst).card := Finset.card_pos.mpr ⟨src, member⟩
  have counted : manager.refCounts.lookup dst = some (linkedTo links dst).card := by
    rw [counts dst, if_neg (Nat.pos_iff_ne_zero.mp positive)]
  have fewer : (linkedTo (links.erase src) dst).card = (linkedTo links dst).card - 1 := by
    rw [linkedTo_erase, Finset.card_erase_of_mem member]
  have others :
      ∀ target, target ≠ dst → linkedTo (links.erase src) target = linkedTo links target := by
    intro target different
    rw [linkedTo_erase, Finset.erase_eq_of_notMem]
    rw [mem_linkedTo, found, Option.some.injEq]
    exact Ne.symm different
  by_cases last : (linkedTo links dst).card - 1 = 0
  · have only : linkedTo links dst = {src} := by
      have one : (linkedTo links dst).card = 1 := by omega
      obtain ⟨single, isSingle⟩ := Finset.card_eq_one.mp one
      rw [isSingle, Finset.mem_singleton] at member
      rw [isSingle, member]
    rw [decreaseRefCount, counted]
    simp only [if_pos last, if_pos only]
    refine ⟨?_, trivial⟩
    intro target
    by_cases isDst : target = dst
    · subst isDst
      rw [Finmap.lookup_erase, fewer, if_pos last]
    · rw [Finmap.lookup_erase_ne isDst, others target isDst]
      exact counts target
  · have notOnly : linkedTo links dst ≠ {src} := by
      intro only
      rw [only, Finset.card_singleton] at last
      exact last rfl
    rw [decreaseRefCount, counted]
    simp only [if_neg last, if_neg notOnly]
    refine ⟨?_, trivial⟩
    intro target
    by_cases isDst : target = dst
    · subst isDst
      rw [Finmap.lookup_insert, fewer, if_neg last]
    · rw [Finmap.lookup_insert_of_ne _ isDst, others target isDst]
      exact counts target

/-- Adding an entry for a path that has none in `links`, whatever the manager
itself still holds for it. -/
theorem addLink_spec {links : Links} {src dst : Str}
    (counts : CountsEntries links manager.refCounts)
    (free : links.lookup src = none) :
    CountsEntries (links.insert src dst) (manager.addLink src dst).refCounts := by
  have notMember : src ∉ linkedTo links dst := by
    rw [mem_linkedTo, free]
    simp
  have more : (linkedTo (links.insert src dst) dst).card = (linkedTo links dst).card + 1 := by
    rw [linkedTo_insert_self, Finset.card_insert_of_notMem notMember]
  have before : (manager.refCounts.lookup dst).getD 0 = (linkedTo links dst).card := by
    rw [counts dst]
    by_cases none_ : (linkedTo links dst).card = 0
    · rw [if_pos none_, none_, Option.getD_none]
    · rw [if_neg none_, Option.getD_some]
  intro target
  change (manager.refCounts.insert dst _).lookup target = _
  by_cases isDst : target = dst
  · subst isDst
    rw [Finmap.lookup_insert, more, before, if_neg (Nat.succ_ne_zero _)]
  · have same : linkedTo (links.insert src dst) target = linkedTo links target := by
      rw [linkedTo_insert_of_ne links src isDst, Finset.erase_eq_of_notMem]
      rw [mem_linkedTo, free]
      simp
    rw [Finmap.lookup_insert_of_ne _ isDst, same]
    exact counts target

private theorem insert_erase_self (links : Links) (src dst : Str) :
    (links.erase src).insert src dst = links.insert src dst := by
  apply Finmap.ext_lookup
  intro asked
  by_cases same : asked = src
  · subst same
    rw [Finmap.lookup_insert, Finmap.lookup_insert]
  · rw [Finmap.lookup_insert_of_ne _ same, Finmap.lookup_insert_of_ne _ same,
      Finmap.lookup_erase_ne same]

theorem atomicLinkUpdate_spec {src dst : Str}
    (counts : CountsEntries manager.links manager.refCounts)
    (quiet : manager.removeCall = none) :
    CountsEntries (manager.atomicLinkUpdate axfs src dst).links
        (manager.atomicLinkUpdate axfs src dst).refCounts ∧
      (manager.atomicLinkUpdate axfs src dst).unlinked = manager.unlinked ∧
      ∀ old,
        (manager.atomicLinkUpdate axfs src dst).removeCall = some old ↔
          manager.links.lookup src = some old ∧ old ≠ dst ∧ linkedTo manager.links old = {src} := by
  unfold atomicLinkUpdate
  cases found : manager.links.lookup src with
  | none =>
      refine ⟨addLink_spec counts found, rfl, ?_⟩
      intro old
      change manager.removeCall = some old ↔ _
      rw [quiet]
      simp
  | some oldDst =>
      by_cases same : oldDst = dst
      · simp only [if_pos same]
        refine ⟨counts, trivial, ?_⟩
        intro old
        rw [quiet]
        constructor
        · intro impossible
          cases impossible
        · rintro ⟨isOld, different, -⟩
          exact (different ((Option.some.inj isOld).symm.trans same)).elim
      · obtain ⟨dropped, call⟩ :=
          @decreaseRefCount_spec _ axfs manager manager.links src oldDst counts found
        simp only [if_neg same]
        refine ⟨?_, decreaseRefCount_unlinked oldDst, ?_⟩
        · have added := @addLink_spec _ (manager.decreaseRefCount axfs oldDst)
              (manager.links.erase src) src dst dropped
              (Finmap.lookup_erase _ _)
          rw [insert_erase_self] at added
          change CountsEntries ((manager.decreaseRefCount axfs oldDst).links.insert src dst) _
          rw [decreaseRefCount_links]
          exact added
        · intro old
          change (manager.decreaseRefCount axfs oldDst).removeCall = some old ↔ _
          rw [call, quiet]
          by_cases only : linkedTo manager.links oldDst = {src}
          · rw [if_pos only]
            constructor
            · intro isOld
              obtain rfl := Option.some.inj isOld
              exact ⟨rfl, same, only⟩
            · exact fun conditions => conditions.1
          · rw [if_neg only]
            constructor
            · intro impossible
              cases impossible
            · rintro ⟨isOld, -, onlyOld⟩
              obtain rfl := Option.some.inj isOld
              exact (only onlyOld).elim

theorem atomicLinkUpdate_links (src dst : Str) :
    (manager.atomicLinkUpdate axfs src dst).links =
      manager.links.insert src dst := by
  unfold atomicLinkUpdate
  cases found : manager.links.lookup src with
  | none => rfl
  | some old =>
      by_cases same : old = dst
      · subst same
        simp only [if_true]
        apply Finmap.ext_lookup
        intro asked
        by_cases isSrc : asked = src
        · rw [isSrc, found, Finmap.lookup_insert]
        · rw [Finmap.lookup_insert_of_ne _ isSrc]
      · simp only [if_neg same]
        change (manager.decreaseRefCount axfs old).links.insert src dst = _
        rw [decreaseRefCount_links]

theorem countsEntries_after (counts : CountsEntries manager.links manager.refCounts)
    (action : LinkAction) :
    CountsEntries (manager.after axfs action).links (manager.after axfs action).refCounts := by
  cases action with
  | createLink src dst =>
      simp only [after, createLink]
      split
      · exact counts
      · split
        · exact counts
        · exact
            (@atomicLinkUpdate_spec _ axfs { manager with removeCall := none } src dst counts rfl).1
  | removeLink src =>
      simp only [after, removeLink]
      cases found : manager.links.lookup src with
      | none =>
          simp only
          split <;> exact counts
      | some dst =>
          simp only
          rw [decreaseRefCount_links]
          exact (@decreaseRefCount_spec _ axfs
              { manager with
                links := manager.links.erase src
                unlinked := insert src manager.unlinked
                removeCall := none }
              manager.links src dst counts found).1

theorem countsEntries_of_reachable (reached : (linkMachine axfs).Reachable manager) :
    CountsEntries manager.links manager.refCounts := by
  refine @Machine.Reachable.invariant _ _ (linkMachine axfs)
      (fun state => CountsEntries state.links state.refCounts)
      ?_ ?_ manager reached
  · rintro started ⟨noLinks, noCounts, -, -⟩
    rw [noLinks, noCounts]
    exact countsEntries_empty
  · intro source action target _ counts stepped
    obtain rfl := Option.some.inj stepped
    exact countsEntries_after counts action

/-! ## Names -/

def names (manager : LinkManager FsState) (file : Str) : Finset Str := linkedTo manager.links file ∪
    if file ∈ manager.unlinked then ∅ else {file}

/-- `link_count` of every existing file is the number of its names. -/
def CountsNames (axfs : AxFs FsState) (manager : LinkManager FsState) :
    Prop :=
  ∀ file, axfs.absolutePathExists manager.fs file = true →
    manager.linkCount axfs file = (manager.names file).card

/-- If a call passes a file to `remove_file`, the file has no name left
after the call. -/
def RemovesNameless (axfs : AxFs FsState) (manager : LinkManager FsState)
    (action : LinkAction) : Prop :=
  ∀ file, (manager.after axfs action).removeCall = some file →
    (manager.after axfs action).names file = ∅

/-- Of the existing files, those with entries have been unlinked under their
own path or have an entry for themselves, and those without entries have not
been unlinked. -/
def OwnNamesAccounted (axfs : AxFs FsState) (manager : LinkManager FsState) : Prop :=
  ∀ file, axfs.absolutePathExists manager.fs file = true →
    ((∃ src, manager.links.lookup src = some file) →
      file ∈ manager.unlinked ∨ manager.links.lookup file = some file) ∧
    ((¬ ∃ src, manager.links.lookup src = some file) → file ∉ manager.unlinked)

/-- A call gives up the last entry of a file only if the file has been
unlinked under its own path before, or with this call.  Unlinking a path
without entry finds no entry for it, and the file is removed or had been
unlinked before. -/
def LastEntriesUnlinked (axfs : AxFs FsState) (manager : LinkManager FsState) : LinkAction → Prop
  | .createLink src dst =>
      axfs.absolutePathExists manager.fs dst = true → isDir dst = true →
        ∀ old, manager.links.lookup src = some old → old ≠ dst →
          (∀ other, manager.links.lookup other = some old → other = src) → old ∈ manager.unlinked
  | .removeLink src =>
      (∀ dst, manager.links.lookup src = some dst →
        (∀ other, manager.links.lookup other = some dst → other = src) →
          dst ∈ manager.unlinked ∨ dst = src) ∧
      (manager.links.lookup src = none →
        (∀ other, manager.links.lookup other ≠ some src) ∧
          (src ∈ manager.unlinked ∨ (axfs.removeFile manager.fs src).1 = .ok ()))

theorem linkedTo_eq_empty_iff {links : Links} {target : Str} :
    linkedTo links target = ∅ ↔ ∀ src, links.lookup src ≠ some target := by
  rw [Finset.eq_empty_iff_forall_notMem]
  simp only [mem_linkedTo, Ne]

theorem linkedTo_eq_singleton_iff {links : Links} {src target : Str}
    (found : links.lookup src = some target) :
    linkedTo links target = {src} ↔ ∀ other, links.lookup other = some target → other = src := by
  rw [Finset.eq_singleton_iff_unique_mem]
  simp only [mem_linkedTo, found, true_and]

theorem names_eq_empty_iff {file : Str} :
    manager.names file = ∅ ↔ linkedTo manager.links file = ∅ ∧ file ∈ manager.unlinked := by
  rw [names, Finset.union_eq_empty]
  by_cases gone : file ∈ manager.unlinked
  · simp [gone]
  · simp [gone]

theorem card_names (file : Str) :
    (manager.names file).card =
      (linkedTo manager.links file).card +
        if file ∈ manager.unlinked ∨ manager.links.lookup file = some file
        then 0 else 1 := by
  rw [names]
  by_cases gone : file ∈ manager.unlinked
  · simp [gone]
  · rw [if_neg gone, Finset.union_comm, Finset.singleton_union]
    by_cases self : manager.links.lookup file = some file
    · rw [Finset.insert_eq_of_mem (mem_linkedTo.mpr self), if_pos (Or.inr self), Nat.add_zero]
    · have notMember : file ∉ linkedTo manager.links file := by
        rw [mem_linkedTo]
        exact self
      rw [Finset.card_insert_of_notMem notMember, if_neg (not_or.mpr ⟨gone, self⟩)]

theorem countsNames_iff (counts : CountsEntries manager.links manager.refCounts) :
    CountsNames axfs manager ↔ OwnNamesAccounted axfs manager := by
  apply forall_congr'
  intro file
  apply imp_congr_right
  intro there
  rw [linkCount, counts file, if_pos there, card_names]
  by_cases empty : linkedTo manager.links file = ∅
  · have noEntry : ¬ ∃ src, manager.links.lookup src = some file := by
      rintro ⟨src, found⟩
      exact linkedTo_eq_empty_iff.mp empty src found
    have notSelf : manager.links.lookup file ≠ some file := linkedTo_eq_empty_iff.mp empty file
    rw [empty, Finset.card_empty, if_pos rfl, Option.getD_none]
    by_cases gone : file ∈ manager.unlinked
    · simp [gone, noEntry]
    · simp [gone, noEntry, notSelf]
  · have entry : ∃ src, manager.links.lookup src = some file := by
      obtain ⟨src, member⟩ := Finset.nonempty_iff_ne_empty.mpr empty
      exact ⟨src, mem_linkedTo.mp member⟩
    have positive : (linkedTo manager.links file).card ≠ 0 := by
      rw [Ne, Finset.card_eq_zero]
      exact empty
    rw [if_neg positive, Option.getD_some]
    by_cases accounted : file ∈ manager.unlinked ∨ manager.links.lookup file = some file
    · simp [accounted, entry]
    · simp [accounted, entry]

theorem removesNameless_createLink_iff (counts : CountsEntries manager.links manager.refCounts)
    (src dst : Str) :
    RemovesNameless axfs manager (.createLink src dst) ↔
      LastEntriesUnlinked axfs manager (.createLink src dst) := by
  unfold RemovesNameless LastEntriesUnlinked
  simp only [after, createLink]
  by_cases there : axfs.absolutePathExists manager.fs dst = true
  · by_cases directory : isDir dst = true
    · simp only [there, directory, not_true_eq_false, if_false, forall_const]
      obtain ⟨-, sameUnlinked, call⟩ :=
        @atomicLinkUpdate_spec _ axfs { manager with removeCall := none } src dst counts rfl
      apply forall_congr'
      intro old
      rw [call old, names_eq_empty_iff, sameUnlinked]
      constructor
      · intro nameless found different only
        exact (nameless ⟨found, different, (linkedTo_eq_singleton_iff found).mpr only⟩).2
      · rintro unlinked ⟨found, different, only⟩
        refine ⟨?_, unlinked found different ((linkedTo_eq_singleton_iff found).mp only)⟩
        rw [atomicLinkUpdate_links,
          linkedTo_insert_of_ne _ _ different, only, Finset.erase_singleton]
    · simp [there, directory]
  · simp [there]

theorem removesNameless_removeLink_iff
    (counts : CountsEntries manager.links manager.refCounts) (src : Str) :
    RemovesNameless axfs manager (.removeLink src) ↔
      LastEntriesUnlinked axfs manager (.removeLink src) := by
  unfold RemovesNameless LastEntriesUnlinked
  simp only [after, removeLink]
  cases found : manager.links.lookup src with
  | some dst =>
      obtain ⟨-, call⟩ := @decreaseRefCount_spec _ axfs
          { manager with
            links := manager.links.erase src
            unlinked := insert src manager.unlinked
            removeCall := none }
          manager.links src dst counts found
      simp only [call]
      by_cases only : linkedTo manager.links dst = {src}
      · have onlyEntry := (linkedTo_eq_singleton_iff found).mp only
        have noEntry : linkedTo (manager.links.erase src) dst = ∅ := by
          rw [linkedTo_erase, only, Finset.erase_singleton]
        simp only [if_pos only, Option.some.injEq, forall_eq',
          names_eq_empty_iff, decreaseRefCount_links,
          decreaseRefCount_unlinked, noEntry, true_and,
          Finset.mem_insert, reduceCtorEq, false_implies, and_true]
        constructor
        · intro gone _
          exact gone.symm
        · intro gone
          exact (gone onlyEntry).symm
      · have notOnly : ¬ ∀ other, manager.links.lookup other = some dst → other = src := by
          intro onlyEntry
          exact only ((linkedTo_eq_singleton_iff found).mpr onlyEntry)
        simp [only, notOnly]
  | none =>
      cases removed : axfs.removeFile manager.fs src with
      | mk result fs =>
          cases result with
          | ok done =>
              simp [names_eq_empty_iff, linkedTo_eq_empty_iff]
          | error error =>
              simp [names_eq_empty_iff, linkedTo_eq_empty_iff]

end LinkManager

/-- In every state of every run of the manager, `link_count` tells the number
of names exactly when the files' own paths are accounted for, and a call
removes only nameless files exactly when it gives up no last entry too
early. -/
theorem hardlink_names_iff {FsState : Type} (axfs : AxFs FsState) (manager : LinkManager FsState)
    (reached : (linkMachine axfs).Reachable manager) :
    (manager.CountsNames axfs ↔ manager.OwnNamesAccounted axfs) ∧
      ∀ action,
        manager.RemovesNameless axfs action ↔
          manager.LastEntriesUnlinked axfs action := by
  have counts := LinkManager.countsEntries_of_reachable reached
  refine ⟨LinkManager.countsNames_iff counts, ?_⟩
  intro action
  cases action with
  | createLink src dst =>
      exact LinkManager.removesNameless_createLink_iff counts src dst
  | removeLink src =>
      exact LinkManager.removesNameless_removeLink_iff counts src

def listFs : AxFs (List Str) where
  absolutePathExists files path := files.contains path
  removeFile files path :=
    if files.contains path then (.ok (), files.erase path)
    else (.error .NotFound, files)

def unusedManager : LinkManager (List Str) where
  fs := [Str.lit "/d/"]
  links := ∅
  refCounts := ∅
  unlinked := ∅
  removeCall := none

def linkedManager : LinkManager (List Str) :=
  unusedManager.after listFs (.createLink (Str.lit "/a") (Str.lit "/d/"))

theorem unusedManager_reachable : (linkMachine listFs).Reachable unusedManager :=
  Machine.Reachable.start ⟨rfl, rfl, rfl, rfl⟩

theorem hardlink_names_iff_linkedManager :
    (linkMachine listFs).Reachable linkedManager ∧
      (linkedManager.CountsNames listFs ↔ linkedManager.OwnNamesAccounted listFs) := by
  have reached : (linkMachine listFs).Reachable linkedManager := unusedManager_reachable.step _ rfl
  exact ⟨reached, (hardlink_names_iff listFs linkedManager reached).1⟩

/-- After one link is made, `link_count` is one for a file with two names, and
removing the link deletes the file although its own name is left. -/
theorem hardlink_own_name_not_counted :
    (linkMachine listFs).Reachable linkedManager ∧ ¬ linkedManager.CountsNames listFs ∧
      ¬ linkedManager.RemovesNameless listFs (.removeLink (Str.lit "/a")) := by
  refine ⟨unusedManager_reachable.step _ rfl, ?_, ?_⟩
  · intro countsNames
    have equal := countsNames (Str.lit "/d/") (by decide +kernel)
    have count : linkedManager.linkCount listFs (Str.lit "/d/") = 1 := by
      decide +kernel
    have two : (linkedManager.names (Str.lit "/d/")).card = 2 := by
      decide +kernel
    omega
  · intro removesNameless
    have nameless := removesNameless (Str.lit "/d/") (by decide +kernel)
    have named :
        Str.lit "/d/" ∈
          (linkedManager.after listFs (.removeLink (Str.lit "/a"))).names (Str.lit "/d/") := by
      decide +kernel
    rw [nameless] at named
    cases named

end Vegar.Path

import Vegar.Path.Hardlink

/-!
# The counts of the hard links are never short

`decrease_ref_count` logs an error where a path has no count.  The checked
versions below stop at a missing count and at a count of zero; no call of the
manager ever stops there.
-/

namespace Vegar.Path

open Vegar.Lib

/-- How `decrease_ref_count` can find the counts in disorder. -/
inductive CountFault where
  /-- The branch that logs "link exists but ref count is zero". -/
  | missing
  /-- `*count -= 1` on a count of zero. -/
  | underflow
  deriving DecidableEq, Repr

namespace LinkManager

section Checked

variable {FsState : Type} (axfs : AxFs FsState)

/-- `decrease_ref_count`, stopping where the counts are in disorder. -/
def decreaseRefCountChecked (manager : LinkManager FsState) (path : Str) :
    Except CountFault (LinkManager FsState) :=
  match manager.refCounts.lookup path with
  | none => .error .missing
  | some 0 => .error .underflow
  | some (count + 1) =>
      if count = 0 then
        .ok
          { manager with
            refCounts := manager.refCounts.erase path
            fs := (axfs.removeFile manager.fs path).2
            removeCall := some path }
      else
        .ok { manager with refCounts := manager.refCounts.insert path count }

/-- `atomic_link_update` with the checked decrement. -/
def atomicLinkUpdateChecked (manager : LinkManager FsState) (src dst : Str) :
    Except CountFault (LinkManager FsState) :=
  match manager.links.lookup src with
  | none => .ok (manager.addLink src dst)
  | some oldDst =>
      if oldDst = dst then .ok manager
      else do
        let manager ← manager.decreaseRefCountChecked axfs oldDst
        return manager.addLink src dst

/-- `create_link` and `remove_link` with the checked decrement. -/
def afterChecked (manager : LinkManager FsState) :
    LinkAction → Except CountFault (LinkManager FsState)
  | .createLink src dst =>
      let manager := { manager with removeCall := none }
      if ¬ axfs.absolutePathExists manager.fs dst then .ok manager
      else if ¬ isDir dst then .ok manager
      else manager.atomicLinkUpdateChecked axfs src dst
  | .removeLink src =>
      match manager.links.lookup src with
      | some dst =>
          { manager with
            links := manager.links.erase src
            unlinked := insert src manager.unlinked
            removeCall := none }.decreaseRefCountChecked axfs dst
      | none => .ok (manager.removeLink axfs src).2

end Checked

variable {FsState : Type} {axfs : AxFs FsState} {manager : LinkManager FsState}

theorem decreaseRefCountChecked_eq {path : Str} {count : Nat}
    (counted : manager.refCounts.lookup path = some count)
    (positive : count ≠ 0) :
    manager.decreaseRefCountChecked axfs path = .ok (manager.decreaseRefCount axfs path) := by
  obtain ⟨left, rfl⟩ := Nat.exists_eq_succ_of_ne_zero positive
  rw [decreaseRefCountChecked, decreaseRefCount, counted]
  simp only [Nat.succ_eq_add_one, Nat.add_sub_cancel]
  split <;> rfl

theorem exists_count_of_link {links : Links} {refCounts : RefCounts} {src dst : Str}
    (counts : CountsEntries links refCounts)
    (found : links.lookup src = some dst) :
    ∃ count, refCounts.lookup dst = some count ∧ count ≠ 0 := by
  have notEmpty : (linkedTo links dst).card ≠ 0 :=
    Finset.card_ne_zero_of_mem (mem_linkedTo.mpr found)
  exact ⟨_, by rw [counts dst, if_neg notEmpty], notEmpty⟩

theorem mem_refCounts_iff {links : Links} {refCounts : RefCounts}
    (counts : CountsEntries links refCounts) (target : Str) :
    target ∈ refCounts ↔ ∃ src, links.lookup src = some target := by
  constructor
  · intro counted
    obtain ⟨count, counted⟩ := Finmap.mem_iff.mp counted
    rw [counts target] at counted
    split at counted
    · cases counted
    · next notEmpty =>
        obtain ⟨src, member⟩ := Finset.card_pos.mp (Nat.pos_of_ne_zero notEmpty)
        exact ⟨src, mem_linkedTo.mp member⟩
  · rintro ⟨src, found⟩
    obtain ⟨count, counted, -⟩ := exists_count_of_link counts found
    exact Finmap.mem_iff.mpr ⟨count, counted⟩

theorem atomicLinkUpdateChecked_eq (counts : CountsEntries manager.links manager.refCounts)
    (src dst : Str) :
    manager.atomicLinkUpdateChecked axfs src dst = .ok (manager.atomicLinkUpdate axfs src dst) := by
  unfold atomicLinkUpdateChecked atomicLinkUpdate
  cases found : manager.links.lookup src with
  | none => rfl
  | some oldDst =>
      obtain ⟨count, counted, positive⟩ := exists_count_of_link counts found
      simp only [decreaseRefCountChecked_eq counted positive]
      split <;> rfl

theorem afterChecked_eq (counts : CountsEntries manager.links manager.refCounts)
    (action : LinkAction) :
    manager.afterChecked axfs action = .ok (manager.after axfs action) := by
  cases action with
  | createLink src dst =>
      have updated :=
        @atomicLinkUpdateChecked_eq _ axfs { manager with removeCall := none } counts src dst
      simp only [afterChecked, after, createLink, updated]
      split
      · rfl
      · split <;> rfl
  | removeLink src =>
      cases found : manager.links.lookup src with
      | none =>
          simp only [afterChecked, after, found]
      | some dst =>
          obtain ⟨count, counted, positive⟩ := exists_count_of_link counts found
          simp only [afterChecked, after, removeLink, found]
          exact @decreaseRefCountChecked_eq _ axfs
              { manager with
                links := manager.links.erase src
                unlinked := insert src manager.unlinked
                removeCall := none }
              dst count counted positive

end LinkManager

/-! ## Runs -/

inductive LinkEvent (FsState : Type) where
  | call (action : LinkAction)
  | fsChange (fs : FsState)

/-- The manager from `HardlinkManager::new` on, in a file system that others
use too. -/
def sharedLinkMachine {FsState : Type} (axfs : AxFs FsState) :
    Machine (LinkManager FsState) (LinkEvent FsState) where
  start manager := manager.links = ∅ ∧ manager.refCounts = ∅
  next
    | manager, .call action => some (manager.after axfs action)
    | manager, .fsChange fs => some { manager with fs := fs }

theorem LinkManager.countsEntries_of_shared
    {FsState : Type} {axfs : AxFs FsState} {manager : LinkManager FsState}
    (reached : (sharedLinkMachine axfs).Reachable manager) :
    CountsEntries manager.links manager.refCounts := by
  refine @Machine.Reachable.invariant _ _ (sharedLinkMachine axfs)
      (fun state => CountsEntries state.links state.refCounts)
      ?_ ?_ manager reached
  · rintro started ⟨noLinks, noCounts⟩
    rw [noLinks, noCounts]
    exact countsEntries_empty
  · intro source event target _ counts stepped
    cases event with
    | call action =>
        obtain rfl := Option.some.inj stepped
        exact countsEntries_after counts action
    | fsChange fs =>
        obtain rfl := Option.some.inj stepped
        exact counts

/-- In every state of every run, a path has a count exactly when some entry
stands for it, the count is the number of those entries, and no call finds
the counts in disorder. -/
theorem refCounts_match_links {FsState : Type} (axfs : AxFs FsState) (manager : LinkManager FsState)
    (reached : (sharedLinkMachine axfs).Reachable manager) :
    (∀ target, (target ∈ manager.refCounts ↔ ∃ src, manager.links.lookup src = some target) ∧
      ∀ count, manager.refCounts.lookup target = some count →
        count = (linkedTo manager.links target).card) ∧
    ∀ action, manager.afterChecked axfs action = .ok (manager.after axfs action) := by
  have counts := LinkManager.countsEntries_of_shared reached
  refine ⟨?_, fun action => LinkManager.afterChecked_eq counts action⟩
  intro target
  refine ⟨LinkManager.mem_refCounts_iff counts target, ?_⟩
  intro count counted
  rw [counts target] at counted
  split at counted
  · cases counted
  · exact (Option.some.inj counted).symm

theorem refCounts_match_links_linkedManager :
    (sharedLinkMachine listFs).Reachable linkedManager ∧
      linkedManager.links.lookup (Str.lit "/a") = some (Str.lit "/d/") ∧
      (Str.lit "/d/" ∈ linkedManager.refCounts ↔
        ∃ src, linkedManager.links.lookup src = some (Str.lit "/d/")) := by
  have started : (sharedLinkMachine listFs).Reachable unusedManager :=
    Machine.Reachable.start ⟨rfl, rfl⟩
  have reached : (sharedLinkMachine listFs).Reachable linkedManager :=
    started.step (.call (.createLink (Str.lit "/a") (Str.lit "/d/"))) rfl
  exact ⟨reached, by decide +kernel, ((refCounts_match_links listFs linkedManager reached).1 _).1⟩

end Vegar.Path

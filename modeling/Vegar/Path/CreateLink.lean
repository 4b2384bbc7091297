import Vegar.Path.Hardlink

/-!
# What `create_link` accepts

The comment on `create_link` says that a missing target is `NotFound` and a
target that is not a file is `NotFile`.  The test in the code is the other way
around: a path with a slash at its end passes, and every other path is
refused.
-/

namespace Vegar.Path

namespace LinkManager

variable {FsState : Type} (axfs : AxFs FsState)

/-- What the comment says of one call: the errors are those of a missing
target and of a directory, every other call makes the link, and a call that
fails leaves both tables alone. -/
structure CreateLinkDocumented (manager : LinkManager FsState) (src dst : Str) : Prop where
  notFound :
    (manager.createLink axfs src dst).1 = .error .NotFound ↔
      axfs.absolutePathExists manager.fs dst = false
  notFile :
    (manager.createLink axfs src dst).1 = .error .NotFile ↔
      axfs.absolutePathExists manager.fs dst = true ∧ isDir dst = true
  linked :
    axfs.absolutePathExists manager.fs dst = true → isDir dst = false →
      (manager.createLink axfs src dst).1 = .ok () ∧
        (manager.createLink axfs src dst).2.links.lookup src = some dst
  failed :
    ∀ error, (manager.createLink axfs src dst).1 = .error error →
      (manager.createLink axfs src dst).2.links = manager.links ∧
        (manager.createLink axfs src dst).2.refCounts = manager.refCounts

variable {axfs} {manager : LinkManager FsState} {src dst : Str}

theorem createLink_of_missing (missing : axfs.absolutePathExists manager.fs dst = false) :
    manager.createLink axfs src dst = (.error .NotFound, { manager with removeCall := none }) := by
  simp [createLink, missing]

theorem createLink_of_file (there : axfs.absolutePathExists manager.fs dst = true)
    (isFile : isDir dst = false) :
    manager.createLink axfs src dst = (.error .NotFile, { manager with removeCall := none }) := by
  simp [createLink, there, isFile]

theorem createLink_of_dir (there : axfs.absolutePathExists manager.fs dst = true)
    (directory : isDir dst = true) :
    (manager.createLink axfs src dst).1 = .ok () := by
  simp [createLink, there, directory]

theorem not_createLinkDocumented_of_exists (there : axfs.absolutePathExists manager.fs dst = true) :
    ¬ manager.CreateLinkDocumented axfs src dst := by
  intro documented
  cases directory : isDir dst with
  | true =>
      have refused := documented.notFile.mpr ⟨there, directory⟩
      rw [createLink_of_dir there directory] at refused
      cases refused
  | false =>
      have accepted := (documented.linked there directory).1
      rw [createLink_of_file there directory] at accepted
      cases accepted

end LinkManager

/-- `create_link` does what its comment says exactly where the target does not
exist. -/
theorem create_link_documented_iff
    {FsState : Type} (axfs : AxFs FsState) (manager : LinkManager FsState)
    (src dst : Str) :
    manager.CreateLinkDocumented axfs src dst ↔ axfs.absolutePathExists manager.fs dst = false := by
  constructor
  · intro documented
    cases there : axfs.absolutePathExists manager.fs dst with
    | false => rfl
    | true =>
        exact (LinkManager.not_createLinkDocumented_of_exists there documented).elim
  · intro missing
    have refused := @LinkManager.createLink_of_missing _ axfs manager src dst missing
    constructor
    · rw [refused]
      exact iff_of_true rfl missing
    · rw [refused, missing]
      exact iff_of_false nofun nofun
    · intro there
      rw [missing] at there
      cases there
    · intro error _
      rw [refused]
      exact ⟨rfl, rfl⟩

def everythingThere : AxFs Unit where
  absolutePathExists _ _ := true
  removeFile _ _ := (.error .PermissionDenied, ())

/-- A link to the existing file `/f` is refused with `NotFile`. -/
theorem create_link_refuses_file :
    let manager : LinkManager Unit := ⟨(), ∅, ∅, ∅, none⟩
    (manager.createLink everythingThere (Str.lit "/l") (Str.lit "/f")).1 = .error .NotFile ∧
      everythingThere.absolutePathExists manager.fs (Str.lit "/f") = true ∧
      isDir (Str.lit "/f") = false ∧
      ¬ manager.CreateLinkDocumented everythingThere (Str.lit "/l") (Str.lit "/f") := by
  refine ⟨rfl, rfl, rfl, ?_⟩
  exact LinkManager.not_createLinkDocumented_of_exists rfl

end Vegar.Path

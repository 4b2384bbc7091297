import Vegar.Task.ExecSpaces

/-!
# What a failed `sys_execve` leaves

The old user areas are gone when `sys_execve` starts to build the new image,
and what the attempt has mapped stays.  A caller gets its own address space
back only if that happens to be what is left.
-/

namespace Vegar.Task

open Vegar.Lib Vegar.Mm

inductive LoadStops (crates : LoaderCrates) (spec : AxmmSpec) (fuel : Nat)
    (args envs : List Str) (before : AddrSpace) : AddrSpace → Prop
  | trampoline (refused : ¬ TrampolineFits crates before) :
      LoadStops crates spec fuel args envs before before.emptied
  | program {error : AxError} (fits : TrampolineFits crates before)
      (fails : resolve crates fuel args = .error (.err error)) :
      LoadStops crates spec fuel args envs before (trampolineSpace crates spec before)
  | image {elf : ElfFile} {finalArgs : List Str} {left : AddrSpace}
      (fits : TrampolineFits crates before)
      (resolved : resolve crates fuel args = .ok (elf, finalArgs))
      (stops :
        ImageStops crates spec elf finalArgs envs (trampolineSpace crates spec before) left) :
      LoadStops crates spec fuel args envs before left

theorem ExactCrates.imageFails_iff {crates : LoaderCrates} {spec : AxmmSpec} {fuel : Nat}
    {args envs : List Str} {before left : AddrSpace}
    (exact : ExactCrates crates spec) :
    ImageFails crates fuel args envs before left ↔
      LoadStops crates spec fuel args envs before left := by
  have image {elf : ElfFile} {finalArgs : List Str} {aspace : AddrSpace} :=
    @loadImage_fails_iff crates spec elf aspace left finalArgs envs
      exact.describes exact.whole (exact.nonempty finalArgs envs)
  by_cases fits : TrampolineFits crates before
  · have mapped := exact.mapTrampoline_of_fits fits
    constructor
    · intro fails
      cases fails with
      | trampoline failed =>
          rw [mapped] at failed
          cases (Prod.mk.inj failed).1
      | program started failed =>
          rw [mapped] at started
          obtain ⟨-, rfl⟩ := Prod.mk.inj started
          exact .program fits failed
      | image started resolved failed =>
          rw [mapped] at started
          obtain ⟨-, rfl⟩ := Prod.mk.inj started
          exact .image fits resolved (image.mp ⟨_, failed⟩)
    · intro stops
      cases stops with
      | trampoline refused => exact absurd fits refused
      | program _ failed => exact .program mapped failed
      | image _ resolved stopped =>
          obtain ⟨error, failed⟩ := image.mpr stopped
          exact .image mapped resolved failed
  · obtain ⟨error, refused⟩ := exact.mapTrampoline_of_refused fits
    constructor
    · intro fails
      cases fails with
      | trampoline failed =>
          rw [refused] at failed
          obtain ⟨-, rfl⟩ := Prod.mk.inj failed
          exact .trampoline fits
      | program started _ =>
          rw [refused] at started
          cases (Prod.mk.inj started).1
      | image started _ _ =>
          rw [refused] at started
          cases (Prod.mk.inj started).1
    · intro stops
      cases stops with
      | trampoline _ => exact .trampoline refused
      | program accepted _ => exact absurd accepted fits
      | image accepted _ _ => exact absurd accepted fits

/-- A failed `sys_execve` leaves the caller as it was exactly when the call is
refused before the image is replaced, or the caller has, page by page, what is
left at the point where the image cannot be built. -/
theorem sysExecve_failure_intact_iff (crates : LoaderCrates) (spec : AxmmSpec) (fuel : Nat)
    (exact : ExactCrates crates spec)
    (task : ExecTask) (path argv envp : Nat) :
    (∀ error after,
        sysExecve crates fuel task path argv envp = (.error (.err error), after) → after = task) ↔
      ∀ request,
        execRequest crates fuel task.aspace path argv envp = .ok request →
          task.threads ≤ 1 →
            ∀ left,
              LoadStops crates spec fuel request.args request.envs task.aspace left →
                left = task.aspace := by
  have unmaps := exact.describes.unmaps
  constructor
  · intro intact request copied single left stops
    have failed := (sysExecve_fails_iff copied single).2
        ⟨left, rfl, (replaceImage_fails_iff unmaps).2 (exact.imageFails_iff.2 stops)⟩
    obtain ⟨error, failed⟩ := failed
    exact congrArg ExecTask.aspace (intact error _ failed)
  · intro harmless error after failed
    cases copied : execRequest crates fuel task.aspace path argv envp with
    | error fault =>
        simp only [sysExecve, copied, Prod.mk.injEq] at failed
        exact failed.2.symm
    | ok request =>
        by_cases many : 1 < task.threads
        · simp only [sysExecve, copied, if_pos many, Prod.mk.injEq] at failed
          exact failed.2.symm
        · have single : task.threads ≤ 1 := by omega
          obtain ⟨left, rfl, fails⟩ := (sysExecve_fails_iff copied single).1 ⟨error, failed⟩
          have stops := exact.imageFails_iff.1 ((replaceImage_fails_iff unmaps).1 fails)
          rw [harmless request copied single left stops]

/-! ## A missing file -/

/-- Physical memory whose pages have the string `a`, and an argument array for
it at the address of the trampoline. -/
def namingMemory (_ : Nat) (offset : Fin pageSize4k) : UInt8 :=
  if offset.val = 0 then 0x61
  else if offset.val = 10 then 0x01
  else if offset.val = 11 then 0x40
  else 0

def namingDisk : LoaderCrates :=
  { emptyDisk with
    axmm := .holding namingMemory
    appStackRegion := fun _ _ _ _ _ => [0] }

theorem exactCrates_namingDisk : ExactCrates namingDisk (.holding namingMemory) where
  describes := AxmmSpec.describes_holding namingMemory
  whole := x86_wholePages
  trampoline := by decide
  trampolinePaddr := by decide
  nonempty _ _ _ := List.cons_ne_nil _ _

def bareTask : ExecTask :=
  { callerTask with
    aspace := trampolineSpace namingDisk (.holding namingMemory) callerTask.aspace }

/-- The call for the file named in the trampoline fails and leaves a process
with the trampoline alone as it was. -/
theorem sysExecve_failure_intact_iff_bareTask :
    (sysExecve namingDisk 8 bareTask 0x40010000 0x40010008 0x40010010).1 = .error (.err .ENOENT) ∧
      (sysExecve namingDisk 8 bareTask 0x40010000 0x40010008 0x40010010).2 =
        bareTask := by
  have returned :
      (sysExecve namingDisk 8 bareTask 0x40010000 0x40010008 0x40010010).1 =
        .error (.err .ENOENT) := by
    decide +kernel
  have fits : TrampolineFits namingDisk bareTask.aspace := by
    refine ⟨by decide, by decide, by decide, ?_⟩
    exact fun number _ => Set.notMem_empty number
  refine ⟨returned, ?_⟩
  refine (sysExecve_failure_intact_iff namingDisk (.holding namingMemory) 8
      exactCrates_namingDisk bareTask 0x40010000 0x40010008
      0x40010010).mpr ?_ _ _ (Prod.ext returned rfl)
  intro request _ _ left stops
  have unresolved : ∃ error, resolve namingDisk 8 request.args = .error (.err error) := by
    cases request.args <;> exact ⟨_, rfl⟩
  cases stops with
  | trampoline refused => exact absurd fits refused
  | program _ _ =>
      exact trampolineSpace_trampolineSpace _ _ _
  | image _ resolved _ =>
      obtain ⟨error, failed⟩ := unresolved
      rw [failed] at resolved
      cases resolved

/-- The call for a file that does not exist returns `ENOENT` to a caller whose
memory is gone. -/
theorem sysExecve_missing_file_unmaps_caller :
    ¬ ∀ error after,
        sysExecve emptyDisk 8 callerTask 0x1000 0x1008 0x1010 = (.error (.err error), after) →
          after = callerTask := by
  intro intact
  have returned :
      (sysExecve emptyDisk 8 callerTask 0x1000 0x1008 0x1010).1 = .error (.err .ENOENT) := by
    decide +kernel
  have mappedBefore : callerTask.aspace.byteAt 0x1000 = some 0x61 := by
    decide +kernel
  have unmappedAfter :
      (sysExecve emptyDisk 8 callerTask 0x1000 0x1008 0x1010).2.aspace.byteAt 0x1000 = none := by
    decide +kernel
  have same :
      (sysExecve emptyDisk 8 callerTask 0x1000 0x1008 0x1010).2 =
        callerTask :=
    intact .ENOENT _ (Prod.ext returned rfl)
  rw [same, mappedBefore] at unmappedAfter
  cases unmappedAfter

end Vegar.Task

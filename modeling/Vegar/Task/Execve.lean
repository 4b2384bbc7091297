import Vegar.Mm.Loader

/-!
# Replacing the program of a process

`sys_execve` of `api/src/imp/task/execve.rs`.  The old user areas are
unmapped before it is known whether the new program can be loaded, and
nothing puts them back.
-/

namespace Vegar.Task

open Vegar.Lib Vegar.Mm

/-- The trap frame of the caller; `others` are the registers the call does
not name. -/
structure TrapFrame where
  ip : Nat
  sp : Nat
  others : Nat → Nat

/-- What `sys_execve` reads and writes of the calling task and its
process. -/
structure ExecTask where
  aspace : AddrSpace
  exePath : Str
  name : Str
  tf : TrapFrame
  threads : Nat

structure ExecRequest where
  path : Str
  args : List Str
  envs : List Str

section Execve

variable (crates : LoaderCrates) (fuel : Nat)

def userStrings (aspace : AddrSpace) (addr : Nat) : Except (Fault LinuxError) (List Str) := do
  let pointers ← UserConstPtr.getPointers crates.axmm aspace fuel addr
  pointers.mapM (UserConstPtr.getAsStr crates.axmm aspace fuel)

/-- The first part of `sys_execve`, which copies its arguments. -/
def execRequest (aspace : AddrSpace) (path argv envp : Nat) :
    Except (Fault LinuxError) ExecRequest := do
  let path ← UserConstPtr.getAsStr crates.axmm aspace fuel path
  let args ← userStrings crates fuel aspace argv
  let envs ← userStrings crates fuel aspace envp
  return ⟨path, args, envs⟩

/-- The part of `sys_execve` that holds the lock of the address space. -/
def replaceImage (args envs : List Str) : AspaceM LinuxError (Nat × Nat) := do
  AspaceM.mapErr crates.linuxError (AspaceM.ofAxmm crates.axmm.unmapUserAreas)
  AspaceM.mapErr crates.linuxError (mapTrampoline crates)
  AspaceM.mapErr (fun _ => .ENOENT) (loadUserApp crates fuel args envs)

/-- `sys_execve`. -/
def sysExecve (task : ExecTask) (path argv envp : Nat) : Except (Fault LinuxError) Nat × ExecTask :=
  match execRequest crates fuel task.aspace path argv envp with
  | .error fault => (.error fault, task)
  | .ok request =>
      if 1 < task.threads then (.error (.err .EAGAIN), task)
      else
        match (replaceImage crates fuel request.args request.envs).runOn task.aspace
        with
        | (.error fault, after) => (.error fault, { task with aspace := after })
        | (.ok (entryPoint, userStackBase), after) =>
            (.ok 0,
              { task with
                aspace := after
                name := Str.afterLastSlash request.path
                exePath := request.path
                tf := { task.tf with ip := entryPoint, sp := userStackBase } })

/-! ## What a failed call leaves behind -/

/-- Building the new image fails and leaves `leftover`, having started from
an address space that was emptied first. -/
inductive ImageFails (args envs : List Str) (aspace : AddrSpace) : AddrSpace → Prop where
  /-- The trampoline cannot be mapped. -/
  | trampoline {error : AxError} {leftover : AddrSpace}
      (fails : (mapTrampoline crates).runOn aspace.emptied = (.error (.err error), leftover)) :
      ImageFails args envs aspace leftover
  /-- There is no program to load: only the trampoline is left. -/
  | program {error : AxError} {trampolineOnly : AddrSpace}
      (mapped : (mapTrampoline crates).runOn aspace.emptied = (.ok (), trampolineOnly))
      (fails : resolve crates fuel args = .error (.err error)) :
      ImageFails args envs aspace trampolineOnly
  /-- The segments, the stack or the heap cannot be set up. -/
  | image {error : AxError} {trampolineOnly leftover : AddrSpace}
      {elf : ElfFile} {finalArgs : List Str}
      (mapped : (mapTrampoline crates).runOn aspace.emptied = (.ok (), trampolineOnly))
      (resolved : resolve crates fuel args = .ok (elf, finalArgs))
      (fails :
        (loadImage crates elf finalArgs envs).runOn trampolineOnly =
          (.error (.err error), leftover)) :
      ImageFails args envs aspace leftover

variable {crates fuel}

private theorem loadUserApp_fails_iff {args envs : List Str} {aspace leftover : AddrSpace} :
    (∃ error, (loadUserApp crates fuel args envs).runOn aspace = (.error (.err error), leftover)) ↔
      (∃ error, resolve crates fuel args = .error (.err error) ∧ aspace = leftover) ∨
        ∃ elf finalArgs error,
          resolve crates fuel args = .ok (elf, finalArgs) ∧
            (loadImage crates elf finalArgs envs).runOn aspace =
              (.error (.err error), leftover) := by
  rw [runOn_loadUserApp]
  rcases resolve crates fuel args with fault | ⟨elf, finalArgs⟩ <;> simp

theorem replaceImage_fails_iff (unmaps : crates.axmm.UnmapsUserAreas)
    {args envs : List Str} {aspace leftover : AddrSpace} :
    (∃ error, (replaceImage crates fuel args envs).runOn aspace = (.error (.err error), leftover)) ↔
      ImageFails crates fuel args envs aspace leftover := by
  have emptied :
      (AspaceM.ofAxmm crates.axmm.unmapUserAreas).runOn aspace = (.ok (), aspace.emptied) := by
    change AspaceM.ofAxmm crates.axmm.unmapUserAreas aspace = _
    rw [AspaceM.ofAxmm, unmaps aspace]
  simp only [replaceImage, AspaceM.runOn_bind_fails_iff,
    AspaceM.runOn_mapErr_fails_iff, AspaceM.runOn_mapErr_ok_iff,
    loadUserApp_fails_iff, emptied]
  constructor
  · rintro (⟨_, impossible⟩ | ⟨_, _, started, afterwards⟩)
    · simp at impossible
    · obtain ⟨-, rfl⟩ := Prod.mk.inj started
      rcases afterwards with
        ⟨error, fails⟩ |
          ⟨_, between, mapped, ⟨error, fails, rfl⟩ | ⟨elf, finalArgs, error, resolved, fails⟩⟩
      · exact .trampoline fails
      · exact .program mapped fails
      · exact .image mapped resolved fails
  · intro fails
    refine Or.inr ⟨(), aspace.emptied, rfl, ?_⟩
    cases fails with
    | trampoline fails => exact Or.inl ⟨_, fails⟩
    | program mapped fails =>
        exact Or.inr ⟨(), _, mapped, Or.inl ⟨_, fails, rfl⟩⟩
    | image mapped resolved fails =>
        exact Or.inr ⟨(), _, mapped, Or.inr ⟨_, _, _, resolved, fails⟩⟩

theorem sysExecve_fails_iff {task after : ExecTask} {path argv envp : Nat} {request : ExecRequest}
    (copied : execRequest crates fuel task.aspace path argv envp = .ok request)
    (single : task.threads ≤ 1) :
    (∃ error, sysExecve crates fuel task path argv envp = (.error (.err error), after)) ↔
      ∃ leftover,
        after = { task with aspace := leftover } ∧
          ∃ error,
            (replaceImage crates fuel request.args request.envs).runOn task.aspace =
              (.error (.err error), leftover) := by
  have notMany : ¬ 1 < task.threads := by omega
  simp only [sysExecve, copied, if_neg notMany]
  rcases (replaceImage crates fuel request.args request.envs).runOn task.aspace
    with ⟨_ | ⟨entryPoint, userStackBase⟩, leftover⟩
  · simp only [Prod.mk.injEq, Except.error.injEq]
    constructor
    · rintro ⟨error, rfl, rfl⟩
      exact ⟨leftover, rfl, error, rfl, rfl⟩
    · rintro ⟨_, rfl, error, rfl, rfl⟩
      exact ⟨error, rfl, rfl⟩
  · simp

end Execve

/-! ## A disk without files -/

def emptyDisk : LoaderCrates where
  toMmCrates := .reference
  config := .x86
  trampolinePaddr := 0
  readFile _ := .error .NotFound
  canonicalize path := .ok path
  parseElf _ := none
  elfParser _ _ _ := none
  appStackRegion _ _ _ _ _ := []

/-- A page with the string `a` at its start, and an argument array with that
one string eight bytes further on. -/
def callerPage : Page where
  flags := .userData
  bytes offset :=
    if offset.val = 0 then 0x61
    else if offset.val = 9 then 0x10
    else 0

/-- A process with that page mapped at `0x1000`. -/
def callerTask : ExecTask where
  aspace :=
    { base := 0x1000
      size := 0x7ffffffff000
      pages := fun number => if number = 1 then some callerPage else none }
  exePath := Str.lit "/sh"
  name := Str.lit "sh"
  tf := ⟨0x2000, 0x3000, fun _ => 0⟩
  threads := 1

end Vegar.Task

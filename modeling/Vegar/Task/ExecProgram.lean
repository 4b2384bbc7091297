import Vegar.Mm.ElfImage
import Vegar.Task.Execve

/-!
# Which file `sys_execve` runs

`sys_execve` gets a path and an argument vector.  `load_user_app` reads the
file that the first argument names; the path only becomes the name of the
task.  The call runs the file at the path, whatever the first argument says,
as long as the first argument names the same contents.
-/

namespace Vegar.Mm

open Vegar.Lib

/-! ## The program behind a file -/

section Resolve

variable {crates : LoaderCrates}

theorem resolve_of_frontArgs_eq_none (fuel : Nat) {content : AxResult (List UInt8)}
    (stays : frontArgs crates content = none) :
    ∃ outcome : Except (Fault AxError) ElfFile,
      ∀ program rest, crates.readFile program = content →
        resolve crates (fuel + 1) (program :: rest) =
          outcome.map fun elf => (elf, program :: rest) := by
  cases content with
  | error error =>
      refine ⟨.error (.err error), ?_⟩
      intro program rest isRead
      simp only [resolve, isRead]
      rfl
  | ok fileData =>
      simp only [frontArgs] at stays
      by_cases script : fileData.take 2 = scriptMagic
      · rw [if_pos script, Option.map_eq_none_iff] at stays
        refine ⟨.error (.err .InvalidData), ?_⟩
        intro program rest isRead
        simp only [resolve, isRead, if_pos script, stays]
        rfl
      · rw [if_neg script] at stays
        cases parsed : crates.parseElf fileData with
        | none =>
            refine ⟨.error (.err .InvalidData), ?_⟩
            intro program rest isRead
            simp only [resolve, isRead, if_neg script, parsed]
            rfl
        | some elf =>
            rcases elf with ⟨input, _ | data | _⟩
            · refine ⟨.ok ⟨input, none⟩, ?_⟩
              intro program rest isRead
              simp only [resolve, isRead, if_neg script, parsed]
              rfl
            · cases named : interpPath crates data with
              | error error =>
                  refine ⟨.error (.err error), ?_⟩
                  intro program rest isRead
                  simp only [resolve, isRead, if_neg script, parsed, named]
                  rfl
              | ok path =>
                  simp only [parsed, named] at stays
                  cases stays
            · refine ⟨.error .panicked, ?_⟩
              intro program rest isRead
              simp only [resolve, isRead, if_neg script, parsed]
              rfl

/-- The program that is found depends on the contents of the first file alone.
The names are put behind what the files put in front. -/
theorem resolve_front (fuel : Nat) (content : AxResult (List UInt8)) :
    ∃ outcome : Except (Fault AxError) (ElfFile × List Str),
      ∀ program rest, crates.readFile program = content →
        resolve crates fuel (program :: rest) = outcome.map fun found =>
            (found.1, found.2 ++ program :: rest) := by
  induction fuel generalizing content with
  | zero => exact ⟨.error .outOfFuel, fun _ _ _ => rfl⟩
  | succ fuel ih =>
      have once := @resolve_succ crates fuel
      cases restarts : frontArgs crates content with
      | some front =>
          cases front with
          | nil => exact (frontArgs_ne_nil restarts rfl).elim
          | cons first more =>
              obtain ⟨outcome, found⟩ := ih (crates.readFile first)
              refine ⟨outcome.map fun found => (found.1, found.2 ++ first :: more), ?_⟩
              intro program rest isRead
              have goesOn := once program rest
              rw [isRead, restarts] at goesOn
              rw [goesOn, List.cons_append, found first _ rfl]
              cases outcome with
              | error fault => rfl
              | ok found => simp [Except.map]
      | none =>
          obtain ⟨outcome, found⟩ := resolve_of_frontArgs_eq_none fuel restarts
          refine ⟨outcome.map fun elf => (elf, []), ?_⟩
          intro program rest isRead
          rw [found program rest isRead]
          cases outcome <;> rfl

structure PlainElf (crates : LoaderCrates) (path : Str) (elf : ElfFile) : Prop where
  parsed :
    ∃ fileData, crates.readFile path = .ok fileData ∧
      fileData.take 2 ≠ scriptMagic ∧ crates.parseElf fileData = some elf
  noInterp : elf.interp = none

theorem PlainElf.resolve {path program : Str} {elf found : ElfFile} {args rest : List Str}
    {fuel : Nat} (plain : PlainElf crates path elf)
    (isPath : crates.readFile program = crates.readFile path)
    (resolved : Mm.resolve crates fuel (program :: rest) = .ok (found, args)) :
    found = elf := by
  obtain ⟨⟨fileData, isRead, notScript, parsed⟩, noInterp⟩ := plain
  cases fuel with
  | zero => cases resolved
  | succ fuel =>
      rw [isRead] at isPath
      simp only [Mm.resolve, isPath, if_neg notScript, parsed, noInterp] at resolved
      exact (Prod.mk.inj (Except.ok.inj resolved)).1.symm

end Resolve

/-! ## The image of a program -/

namespace PlatConfig

def userStackBase (config : PlatConfig) : Nat := config.userStackTop - config.userStackSize

def InStack (config : PlatConfig) (addr : Nat) : Prop :=
  config.userStackBase ≤ addr ∧ addr < config.userStackTop

structure WholePages (config : PlatConfig) : Prop where
  stackTop : config.userStackTop % pageSize4k = 0
  stackSize : config.userStackSize % pageSize4k = 0
  stackFits : config.userStackSize ≤ config.userStackTop
  heapBase : config.userHeapBase % pageSize4k = 0
  heapSize : config.userHeapSize % pageSize4k = 0

theorem WholePages.stackBase {config : PlatConfig} (whole : config.WholePages) :
    config.userStackBase % pageSize4k = 0 := by
  have top := whole.stackTop
  have size := whole.stackSize
  have fits := whole.stackFits
  simp only [userStackBase, pageSize4k] at *
  omega

end PlatConfig

section Image

variable {crates : LoaderCrates} {elf : ElfFile} {aspace : AddrSpace}

def stackData (crates : LoaderCrates) (args envs : List Str)
    (auxv : List (Nat × Nat)) : List UInt8 :=
  crates.appStackRegion args envs auxv crates.config.userStackBase crates.config.userStackSize

def withStack (crates : LoaderCrates) (loaded : AddrSpace) : AddrSpace :=
  loaded.withRange crates.config.userStackBase crates.config.userStackSize
    (some (freshPage .userData))

def withStackAndHeap (crates : LoaderCrates) (loaded : AddrSpace) :
    AddrSpace :=
  (withStack crates loaded).withRange crates.config.userHeapBase
    crates.config.userHeapSize (some (freshPage .userData))

structure HasRoom (crates : LoaderCrates) (loaded : AddrSpace) : Prop where
  stack : loaded.room.Accepts crates.config.userStackBase crates.config.userStackSize
  heap :
    (withStack crates loaded).room.Accepts crates.config.userHeapBase crates.config.userHeapSize

theorem mapAlloc_ok_iff (loading : crates.axmm.Loading) {start size : Nat}
    {flags : MappingFlags} {after : AddrSpace}
    (wholeStart : start % pageSize4k = 0)
    (wholeSize : size % pageSize4k = 0) :
    crates.axmm.mapAlloc aspace start size flags true = (.ok (), after) ↔
      aspace.room.Accepts start size ∧
        after = aspace.withRange start size (some (freshPage flags)) := by
  by_cases accepts : aspace.room.Accepts start size
  · rw [loading.maps _ _ _ _ wholeStart wholeSize accepts]
    constructor
    · intro same
      exact ⟨accepts, (Prod.mk.inj same).2.symm⟩
    · intro both
      rw [both.2]
  · obtain ⟨error, left, refused⟩ := loading.refuses _ _ _ flags wholeStart wholeSize accepts
    rw [refused]
    constructor
    · intro same
      cases (Prod.mk.inj same).1
    · intro both
      exact (accepts both.1).elim

theorem byteAt_of_accepts {start size addr : Nat} {flags : MappingFlags} {byte : UInt8}
    (accepts : aspace.room.Accepts start size)
    (mapped : aspace.byteAt addr = some byte) :
    ¬ Touches start size (addr / pageSize4k) ∧
      (aspace.withRange start size (some (freshPage flags))).byteAt addr =
        some byte := by
  have isMapped : aspace.IsMapped (addr / pageSize4k) := by
    rw [← AddrSpace.isSome_byteAt, mapped]
    rfl
  have apart : ¬ Touches start size (addr / pageSize4k) :=
    fun touches => accepts.free _ touches isMapped
  rw [AddrSpace.byteAt_withRange, if_neg apart]
  exact ⟨apart, mapped⟩

theorem HasRoom.byteAt (room : HasRoom crates aspace) {addr : Nat} {byte : UInt8}
    (mapped : aspace.byteAt addr = some byte) :
    ¬ crates.config.InStack addr ∧ (withStackAndHeap crates aspace).byteAt addr = some byte := by
  obtain ⟨apart, onStack⟩ := @byteAt_of_accepts aspace _ _ addr .userData byte room.stack mapped
  refine ⟨?_, (byteAt_of_accepts room.heap onStack).2⟩
  rintro ⟨above, below⟩
  apply apart
  have isTop :
      crates.config.userStackTop ≤
        crates.config.userStackBase + crates.config.userStackSize := by
    rw [PlatConfig.userStackBase]
    omega
  simp only [Touches, pageSize4k]
  omega

theorem loadImage_runOn {args envs : List Str} {entry : Nat} {auxv : List (Nat × Nat)}
    {loaded : AddrSpace}
    (ran : (mapElf crates elf).runOn aspace = (.ok (entry, auxv), loaded)) :
    (loadImage crates elf args envs).runOn aspace =
      match
        crates.axmm.mapAlloc loaded crates.config.userStackBase
          crates.config.userStackSize .userData true
      with
      | (.error error, after) => (.error (.err error), after)
      | (.ok (), stacked) =>
          match
            crates.axmm.mapAlloc stacked crates.config.userHeapBase
              crates.config.userHeapSize .userData true
          with
          | (.error error, after) => (.error (.err error), after)
          | (.ok (), heaped) =>
              let data := stackData crates args envs auxv
              let userSp := crates.config.userStackTop - data.length
              if crates.config.userStackTop < data.length then
                (.error .panicked, heaped)
              else
                match crates.axmm.write heaped userSp data with
                | (.error error, after) => (.error (.err error), after)
                | (.ok (), after) => (.ok (entry, userSp), after) := by
  simp only [loadImage, AspaceM.runOn_bind, ran, AspaceM.runOn_ofAxmm,
    stackData, PlatConfig.userStackBase]
  rcases crates.axmm.mapAlloc loaded (crates.config.userStackTop - crates.config.userStackSize)
      crates.config.userStackSize .userData true
    with ⟨_ | _, stacked⟩
  · rfl
  · simp only
    rcases crates.axmm.mapAlloc stacked crates.config.userHeapBase
        crates.config.userHeapSize .userData true
      with ⟨_ | _, heaped⟩
    · rfl
    · by_cases tooLong :
          crates.config.userStackTop <
            (crates.appStackRegion args envs auxv
              (crates.config.userStackTop - crates.config.userStackSize)
              crates.config.userStackSize).length
      · simp only [if_pos tooLong, AspaceM.runOn_bind, AspaceM.runOn_throw]
        exact (if_pos tooLong).symm
      · simp only [if_neg tooLong, AspaceM.runOn_bind, AspaceM.runOn_ofAxmm]
        refine Eq.trans ?_ (if_neg tooLong).symm
        rcases crates.axmm.write heaped _ _ with ⟨_ | _, after⟩ <;> rfl

theorem hasRoom_of_loadImage (loading : crates.axmm.Loading) (whole : crates.config.WholePages)
    {args envs : List Str} {entry userSp : Nat} {after : AddrSpace}
    (ran : (loadImage crates elf args envs).runOn aspace = (.ok (entry, userSp), after)) :
    ∃ auxv loaded,
      (mapElf crates elf).runOn aspace = (.ok (entry, auxv), loaded) ∧
        HasRoom crates loaded := by
  rcases segments : (mapElf crates elf).runOn aspace with ⟨fault | ⟨start, auxv⟩, loaded⟩
  · rw [loadImage, AspaceM.runOn_bind, segments] at ran
    cases (Prod.mk.inj ran).1
  · rw [loadImage_runOn segments] at ran
    rcases stackMapped :
        crates.axmm.mapAlloc loaded crates.config.userStackBase
          crates.config.userStackSize .userData true with
      ⟨error | _, stacked⟩
    · rw [stackMapped] at ran
      cases (Prod.mk.inj ran).1
    · obtain ⟨stackRoom, isStacked⟩ :=
        (mapAlloc_ok_iff loading whole.stackBase whole.stackSize).mp stackMapped
      rcases heapMapped :
          crates.axmm.mapAlloc stacked crates.config.userHeapBase
            crates.config.userHeapSize .userData true with
        ⟨error | _, heaped⟩
      · simp only [stackMapped, heapMapped] at ran
        cases (Prod.mk.inj ran).1
      · obtain ⟨heapRoom, -⟩ :=
          (mapAlloc_ok_iff loading whole.heapBase whole.heapSize).mp heapMapped
        rw [isStacked] at heapRoom
        simp only [stackMapped, heapMapped] at ran
        have isEntry : start = entry := by
          split at ran
          · cases (Prod.mk.inj ran).1
          · split at ran
            · cases (Prod.mk.inj ran).1
            · exact (Prod.mk.inj (Except.ok.inj (Prod.mk.inj ran).1)).1
        rw [isEntry]
        exact ⟨auxv, loaded, rfl, stackRoom, heapRoom⟩

end Image

end Vegar.Mm

namespace Vegar.Task

open Vegar.Lib Vegar.Mm

section Execve

variable {crates : LoaderCrates} {fuel : Nat}

theorem replaceImage_ok_iff (unmaps : crates.axmm.UnmapsUserAreas)
    {argv envs : List Str} {aspace after : AddrSpace} {value : Nat × Nat} :
    (replaceImage crates fuel argv envs).runOn aspace = (.ok value, after) ↔
      ∃ trampoline elf args,
        (mapTrampoline crates).runOn aspace.emptied = (.ok (), trampoline) ∧
          resolve crates fuel argv = .ok (elf, args) ∧
          (loadImage crates elf args envs).runOn trampoline = (.ok value, after) := by
  have emptied :
      (AspaceM.ofAxmm crates.axmm.unmapUserAreas).runOn aspace = (.ok (), aspace.emptied) := by
    rw [AspaceM.runOn_ofAxmm, unmaps aspace]
  simp only [replaceImage, AspaceM.runOn_bind_ok_iff,
    AspaceM.runOn_mapErr_ok_iff, emptied, runOn_loadUserApp]
  constructor
  · rintro ⟨_, started, isStarted, _, trampoline, mapped, loaded⟩
    rw [← (Prod.mk.inj isStarted).2] at mapped
    cases resolved : resolve crates fuel argv with
    | error fault =>
        rw [resolved] at loaded
        cases (Prod.mk.inj loaded).1
    | ok found =>
        rw [resolved] at loaded
        exact ⟨trampoline, found.1, found.2, mapped, rfl, loaded⟩
  · rintro ⟨trampoline, elf, args, mapped, resolved, loaded⟩
    rw [resolved]
    exact ⟨(), aspace.emptied, rfl, (), trampoline, mapped, loaded⟩

/-- The task after a successful `sys_execve`. -/
def executed (task : ExecTask) (path : Str) (entryPoint userStackBase : Nat)
    (aspace : AddrSpace) : ExecTask :=
  { task with
    aspace := aspace
    name := Str.afterLastSlash path
    exePath := path
    tf := { task.tf with ip := entryPoint, sp := userStackBase } }

theorem sysExecve_ok_iff {task after : ExecTask} {path argv envp : Nat} {request : ExecRequest}
    (copied : execRequest crates fuel task.aspace path argv envp = .ok request) :
    sysExecve crates fuel task path argv envp = (.ok 0, after) ↔
      task.threads ≤ 1 ∧
        ∃ entryPoint userStackBase aspace,
          (replaceImage crates fuel request.args request.envs).runOn task.aspace =
            (.ok (entryPoint, userStackBase), aspace) ∧
          after =
            executed task request.path entryPoint userStackBase aspace := by
  by_cases many : 1 < task.threads
  · simp only [sysExecve, copied, if_pos many]
    constructor
    · intro same
      cases (Prod.mk.inj same).1
    · intro single
      exact absurd single.1 (by omega)
  · have single : task.threads ≤ 1 := by omega
    simp only [sysExecve, copied, if_neg many]
    rcases (replaceImage crates fuel request.args request.envs).runOn task.aspace
      with ⟨fault | ⟨entryPoint, userStackBase⟩, aspace⟩
    · constructor
      · intro same
        cases (Prod.mk.inj same).1
      · rintro ⟨-, _, _, _, impossible, -⟩
        cases (Prod.mk.inj impossible).1
    · constructor
      · intro same
        exact ⟨single, entryPoint, userStackBase, aspace, rfl, (Prod.mk.inj same).2.symm⟩
      · rintro ⟨-, entry, base, space, same, isAfter⟩
        obtain ⟨isValue, rfl⟩ := Prod.mk.inj same
        obtain ⟨rfl, rfl⟩ := Prod.mk.inj (Except.ok.inj isValue)
        rw [isAfter]
        rfl

end Execve

section Headers

variable {crates : LoaderCrates}

theorem elfParser_of_mapElf {elf : ElfFile} {aspace loaded : AddrSpace} {entry : Nat}
    {auxv : List (Nat × Nat)}
    (ran : (mapElf crates elf).runOn aspace = (.ok (entry, auxv), loaded)) :
    ∃ parser, crates.elfParser elf crates.config.userInterpBase aspace.base = some parser ∧
      parser.auxv = auxv := by
  obtain ⟨state, between, isState, rest⟩ := AspaceM.runOn_bind_ok_iff.mp ran
  obtain ⟨isValue, rfl⟩ := Prod.mk.inj isState
  obtain rfl := Except.ok.inj isValue
  dsimp only at rest
  split at rest
  · cases (Prod.mk.inj rest).1
  · next parser isParser =>
      obtain ⟨-, final, -, returned⟩ := AspaceM.runOn_bind_ok_iff.mp rest
      have isPair := Except.ok.inj (Prod.mk.inj returned).1
      exact ⟨parser, isParser, (Prod.mk.inj isPair).2⟩

end Headers

deriving instance DecidableEq for ExecRequest

def plainDisk (files : List Str) : LoaderCrates :=
  { emptyDisk with
    axmm := .nonempty
    readFile := fun path =>
      if path ∈ files then .ok [0x7f] else .error .NotFound
    parseElf := fun fileData => some ⟨fileData, none⟩
    elfParser := fun _ _ _ => some ⟨[], 0x1000, []⟩
    appStackRegion := fun _ _ _ _ _ => [0] }

theorem x86_wholePages : PlatConfig.x86.WholePages where
  stackTop := by decide
  stackSize := by decide
  stackFits := by decide
  heapBase := by decide
  heapSize := by decide

/-- A page with the strings `a` and `b`, and for each an argument vector with
it alone. -/
def twoNamesPage : Page where
  flags := .userData
  bytes offset :=
    if offset.val = 0 then 0x61
    else if offset.val = 2 then 0x62
    else if offset.val = 9 then 0x10
    else if offset.val = 24 then 0x02
    else if offset.val = 25 then 0x10
    else 0

def twoNamesTask : ExecTask :=
  { callerTask with
    aspace :=
      { callerTask.aspace with
        pages := fun number =>
          if number = 1 then some twoNamesPage else none } }

end Vegar.Task

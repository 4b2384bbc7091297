import Vegar.Task.ExecSpaces

/-!
# What the first argument of `sys_execve` decides

`load_user_app` reads the file that the first argument names; the path only
becomes the name of the task.
-/

namespace Vegar.Task

open Vegar.Lib Vegar.Mm

def RunsProgram (crates : LoaderCrates) (elf : ElfFile) (before after : ExecTask) :
    Prop :=
  ∃ trampoline loaded auxv,
    (mapTrampoline crates).runOn before.aspace.emptied = (.ok (), trampoline) ∧
      (mapElf crates elf).runOn trampoline = (.ok (after.tf.ip, auxv), loaded) ∧
      ∀ addr byte, loaded.byteAt addr = some byte → after.aspace.byteAt addr = some byte

structure AlikeButStack (config : PlatConfig) (one other : ExecTask) : Prop where
  entry : one.tf.ip = other.tf.ip
  registers : one.tf.others = other.tf.others
  name : one.name = other.name
  exePath : one.exePath = other.exePath
  threads : one.threads = other.threads
  bytes : ∀ addr, ¬ config.InStack addr → one.aspace.byteAt addr = other.aspace.byteAt addr

/-- Two calls for one path succeed or fail together, run the program at the
path if it is a plain one, and leave tasks that differ on their stacks
only. -/
structure RunsPath (crates : LoaderCrates) (path : Str) (before : ExecTask)
    (one other : Except (Fault LinuxError) Nat × ExecTask) : Prop where
  together : one.1 = .ok 0 ↔ other.1 = .ok 0
  program :
    one.1 = .ok 0 → ∀ elf, PlainElf crates path elf →
      RunsProgram crates elf before one.2 ∧ RunsProgram crates elf before other.2
  alike : one.1 = .ok 0 → AlikeButStack crates.config one.2 other.2

/-! ## The memory of a plan -/

namespace ExecPlan

variable (crates : LoaderCrates) (spec : AxmmSpec) (plan : ExecPlan)
  (before : AddrSpace) (envs : List Str)

def segments : AddrSpace :=
  loadedAll plan.elf.input (trampolineSpace crates spec before) plan.parser.phLoad

def byteAt (addr : Nat) : Option UInt8 :=
  if OnTop crates.config (plan.data crates envs) addr then
    (plan.data crates envs)[addr - plan.userSp crates envs]?
  else
    (withStackAndHeap crates (plan.segments crates spec before)).byteAt addr

def FitsStack : Prop := (plan.data crates envs).length ≤ crates.config.userStackSize

def Holds (elf : ElfFile) : Prop := ∃ parser,
    Loadable crates elf (trampolineSpace crates spec before) parser ∧
      parser.entry = plan.parser.entry ∧
      ∀ addr byte,
        (loadedAll elf.input (trampolineSpace crates spec before)
          parser.phLoad).byteAt addr = some byte →
          plan.byteAt crates spec before envs addr = some byte

variable {crates spec plan before envs}

theorem Feasible.loadable {fuel : Nat} {request : ExecRequest}
    (feasible : plan.Feasible crates before fuel request) :
    Loadable crates plan.elf (trampolineSpace crates spec before)
      plan.parser := by
  have sameRoom := ExactCrates.room_trampolineSpace crates spec before
  refine ⟨feasible.parsed, ?_, ?_⟩
  · rw [sameRoom]
    exact feasible.handled
  · rw [sameRoom]
    exact feasible.loads

theorem Feasible.hasRoom {fuel : Nat} {request : ExecRequest}
    (feasible : plan.Feasible crates before fuel request) :
    HasRoom crates (plan.segments crates spec before) := by
  have isRoom :
      (plan.segments crates spec before).room =
        plan.segmentsRoom crates before := by
    rw [segments, room_loadedAll, ExactCrates.room_trampolineSpace]
    rfl
  refine ⟨?_, ?_⟩
  · rw [isRoom]
    exact feasible.stack
  · rw [room_withStack, isRoom]
    exact feasible.heap

theorem FitsStack.not_onTop (fits : plan.FitsStack crates envs) {addr : Nat}
    (outside : ¬ crates.config.InStack addr) :
    ¬ OnTop crates.config (plan.data crates envs) addr := by
  rintro ⟨above, below⟩
  apply outside
  simp only [FitsStack, PlatConfig.InStack, PlatConfig.userStackBase] at *
  omega

theorem Feasible.holds {fuel : Nat} {request : ExecRequest}
    (feasible : plan.Feasible crates before fuel request)
    (fits : plan.FitsStack crates envs) :
    plan.Holds crates spec before envs plan.elf := by
  refine ⟨plan.parser, feasible.loadable, rfl, ?_⟩
  intro addr byte isLoaded
  obtain ⟨outside, kept⟩ := feasible.hasRoom.byteAt isLoaded
  rw [byteAt, if_neg (fits.not_onTop outside)]
  exact kept

end ExecPlan


/-! ## The calls -/

section Calls

variable {crates : LoaderCrates} {spec : AxmmSpec} {fuel : Nat}
  {task : ExecTask} {path argv envp : Nat} {request : ExecRequest}

theorem ExactCrates.sysExecve_of_feasible (exact : ExactCrates crates spec)
    (copied : execRequest crates fuel task.aspace path argv envp = .ok request)
    (single : task.threads ≤ 1) {plan : ExecPlan}
    (feasible : plan.Feasible crates task.aspace fuel request) :
    ∃ after,
      sysExecve crates fuel task path argv envp =
          (.ok 0,
            executed task request.path plan.parser.entry (plan.userSp crates request.envs) after) ∧
        ∀ addr,
          after.byteAt addr =
            plan.byteAt crates spec task.aspace request.envs addr := by
  obtain ⟨trampoline, loaded, after, mapped, segments, ran, -, image⟩ :=
    exact.execCrates.replaceImage_of_feasible feasible
  rw [exact.mapTrampoline_of_fits feasible.trampoline] at mapped
  obtain rfl := (Prod.mk.inj mapped).2
  rw [feasible.loadable.mapElf exact.describes] at segments
  obtain rfl := (Prod.mk.inj segments).2
  refine ⟨after, ?_, image.bytes⟩
  exact (sysExecve_ok_iff copied).mpr ⟨single, _, _, after, ran, rfl⟩

theorem ExactCrates.sysExecve_succeeds_iff (exact : ExactCrates crates spec)
    (copied : execRequest crates fuel task.aspace path argv envp = .ok request) :
    (sysExecve crates fuel task path argv envp).1 = .ok 0 ↔
      task.threads ≤ 1 ∧
        ∃ plan : ExecPlan,
          plan.Feasible crates task.aspace fuel request := by
  constructor
  · intro succeeds
    obtain ⟨single, entry, userSp, aspace, ran, -⟩ :=
      (sysExecve_ok_iff copied).mp (Prod.ext succeeds rfl)
    exact ⟨single, exact.execCrates.feasible_of_replaceImage ran⟩
  · rintro ⟨single, plan, feasible⟩
    obtain ⟨after, ran, -⟩ := exact.sysExecve_of_feasible copied single feasible
    rw [ran]

theorem ExactCrates.runsProgram_iff (exact : ExactCrates crates spec) {plan : ExecPlan}
    (feasible : plan.Feasible crates task.aspace fuel request)
    {elf : ElfFile} {after : ExecTask}
    (isEntry : after.tf.ip = plan.parser.entry)
    (bytes :
      ∀ addr, after.aspace.byteAt addr = plan.byteAt crates spec task.aspace request.envs addr) :
    RunsProgram crates elf task after ↔
      plan.Holds crates spec task.aspace request.envs elf := by
  have mapped := exact.mapTrampoline_of_fits feasible.trampoline
  constructor
  · rintro ⟨trampoline, loaded, auxv, started, segments, kept⟩
    rw [mapped] at started
    obtain rfl := (Prod.mk.inj started).2
    obtain ⟨parser, loadable, sameEntry, -, rfl⟩ := loadable_of_mapElf exact.describes segments
    refine ⟨parser, loadable, sameEntry.trans isEntry, ?_⟩
    intro addr byte isLoaded
    rw [← bytes]
    exact kept addr byte isLoaded
  · rintro ⟨parser, loadable, sameEntry, kept⟩
    refine ⟨_, loadedAll elf.input (trampolineSpace crates spec task.aspace)
        parser.phLoad, parser.auxv, mapped, ?_, ?_⟩
    · rw [isEntry, ← sameEntry]
      exact loadable.mapElf exact.describes
    · intro addr byte isLoaded
      rw [bytes]
      exact kept addr byte isLoaded

end Calls

/-- Two requests lead to programs that can be loaded or not, start at the same
address, have the same bytes outside the stack, and hold the program at the
path if there is a plain one. -/
structure SamePrograms (crates : LoaderCrates) (spec : AxmmSpec) (fuel : Nat)
    (before : AddrSpace) (path : Str) (one other : ExecRequest) : Prop where
  together :
    (∃ plan : ExecPlan, plan.Feasible crates before fuel one) ↔
      ∃ plan : ExecPlan, plan.Feasible crates before fuel other
  entry :
    ∀ plan plan' : ExecPlan, plan.Feasible crates before fuel one →
      plan'.Feasible crates before fuel other → plan.parser.entry = plan'.parser.entry
  bytes :
    ∀ plan plan' : ExecPlan, plan.Feasible crates before fuel one →
      plan'.Feasible crates before fuel other →
        ∀ addr, ¬ crates.config.InStack addr →
          plan.byteAt crates spec before one.envs addr =
            plan'.byteAt crates spec before other.envs addr
  holds :
    ∀ plan plan' : ExecPlan, plan.Feasible crates before fuel one →
      plan'.Feasible crates before fuel other →
        ∀ elf, PlainElf crates path elf →
          plan.Holds crates spec before one.envs elf ∧ plan'.Holds crates spec before other.envs elf

/-! ## Files with the same contents -/

section Contents

variable {crates : LoaderCrates} {spec : AxmmSpec} {fuel : Nat} {before : AddrSpace}

def ArgsFitStack (crates : LoaderCrates) (fuel : Nat) (before : AddrSpace)
    (request : ExecRequest) : Prop :=
  ∀ plan : ExecPlan, resolve crates fuel request.args = .ok (plan.elf, plan.args) →
    crates.elfParser plan.elf crates.config.userInterpBase before.base = some plan.parser →
      plan.FitsStack crates request.envs

theorem ExecPlan.FitsStack.writable
    {plan : ExecPlan} {envs : List Str} (fits : plan.FitsStack crates envs)
    (whole : crates.config.WholePages) :
    Writable crates.config (plan.finalRoom crates before) (plan.data crates envs) := by
  have stackFits := whole.stackFits
  refine ⟨fits.trans stackFits, ?_⟩
  rintro addr ⟨above, below⟩
  rw [plan.mem_finalRoom]
  refine .inr (.inr (.inl ?_))
  simp only [ExecPlan.FitsStack, PlatConfig.userStackBase, Touches, pageSize4k] at *
  omega

theorem ExecPlan.Feasible.withArgs {plan : ExecPlan} {request other : ExecRequest} {args : List Str}
    (feasible : plan.Feasible crates before fuel request)
    (whole : crates.config.WholePages)
    (resolved : resolve crates fuel other.args = .ok (plan.elf, args))
    (fits : ArgsFitStack crates fuel before other) :
    ExecPlan.Feasible crates ⟨plan.elf, args, plan.parser⟩ before fuel other where
  resolved := resolved
  parsed := feasible.parsed
  trampoline := feasible.trampoline
  handled := feasible.handled
  loads := feasible.loads
  stack := feasible.stack
  heap := feasible.heap
  writable := (fits ⟨plan.elf, args, plan.parser⟩ resolved feasible.parsed).writable whole

theorem resolve_of_contents {one two : Str} (names : crates.readFile two = crates.readFile one)
    {rest args : List Str} {elf : ElfFile}
    (resolved : resolve crates fuel (one :: rest) = .ok (elf, args)) :
    ∃ otherArgs, resolve crates fuel (two :: rest) = .ok (elf, otherArgs) := by
  obtain ⟨outcome, found⟩ := @resolve_front crates fuel (crates.readFile one)
  rw [found one rest rfl] at resolved
  rw [found two rest names]
  cases outcome with
  | error fault => cases resolved
  | ok program =>
      obtain ⟨rfl, -⟩ := Prod.mk.inj (Except.ok.inj resolved)
      exact ⟨_, rfl⟩

theorem samePrograms_of_contents (whole : crates.config.WholePages)
    {path first second : Str} {rest envs : List Str}
    (firstNames : crates.readFile first = crates.readFile path)
    (secondNames : crates.readFile second = crates.readFile path)
    (fits : ArgsFitStack crates fuel before ⟨path, first :: rest, envs⟩)
    (otherFits : ArgsFitStack crates fuel before ⟨path, second :: rest, envs⟩) :
    SamePrograms crates spec fuel before path ⟨path, first :: rest, envs⟩
      ⟨path, second :: rest, envs⟩ := by
  have names := secondNames.trans firstNames.symm
  have sameParts (plan plan' : ExecPlan)
      (feasible : plan.Feasible crates before fuel ⟨path, first :: rest, envs⟩)
      (otherFeasible : plan'.Feasible crates before fuel ⟨path, second :: rest, envs⟩) :
      plan.elf = plan'.elf ∧ plan.parser = plan'.parser := by
    obtain ⟨args, resolved⟩ := resolve_of_contents names feasible.resolved
    have sameElf := (Prod.mk.inj (Except.ok.inj (resolved.symm.trans otherFeasible.resolved))).1
    have parsed := otherFeasible.parsed
    rw [← sameElf, feasible.parsed] at parsed
    exact ⟨sameElf, Option.some.inj parsed⟩
  refine ⟨⟨?_, ?_⟩, ?_, ?_, ?_⟩
  · rintro ⟨plan, feasible⟩
    obtain ⟨args, resolved⟩ := resolve_of_contents names feasible.resolved
    exact ⟨_, feasible.withArgs whole resolved otherFits⟩
  · rintro ⟨plan, feasible⟩
    obtain ⟨args, resolved⟩ := resolve_of_contents names.symm feasible.resolved
    exact ⟨_, feasible.withArgs whole resolved fits⟩
  · intro plan plan' feasible otherFeasible
    rw [(sameParts plan plan' feasible otherFeasible).2]
  · intro plan plan' feasible otherFeasible addr outside
    obtain ⟨sameElf, sameParser⟩ := sameParts plan plan' feasible otherFeasible
    have onStack := fits plan feasible.resolved feasible.parsed
    have otherOnStack := otherFits plan' otherFeasible.resolved otherFeasible.parsed
    rw [ExecPlan.byteAt, if_neg (onStack.not_onTop outside),
      ExecPlan.byteAt, if_neg (otherOnStack.not_onTop outside),
      ExecPlan.segments, ExecPlan.segments, sameElf, sameParser]
  · intro plan plan' feasible otherFeasible elf plain
    have isElf := plain.resolve firstNames feasible.resolved
    have isOtherElf := plain.resolve secondNames otherFeasible.resolved
    refine ⟨?_, ?_⟩
    · rw [← isElf]
      exact feasible.holds (fits plan feasible.resolved feasible.parsed)
    · rw [← isOtherElf]
      exact otherFeasible.holds (otherFits plan' otherFeasible.resolved otherFeasible.parsed)

end Contents

/-! ## Two first arguments -/

/-- Two calls of `sys_execve` for one path with argument vectors that differ in
the first argument run the file at the path and differ on their stacks only
exactly if there is more than one thread, so that both fail, or the first
arguments lead to the same memory, which is that of the file at the path if it
is a plain program. -/
theorem sysExecve_runs_path_iff (crates : LoaderCrates) (spec : AxmmSpec) (fuel : Nat)
    (exact : ExactCrates crates spec)
    (task : ExecTask) (pathAddr argv otherArgv envp : Nat)
    (path first second : Str) (rest envs : List Str)
    (copied :
      execRequest crates fuel task.aspace pathAddr argv envp = .ok ⟨path, first :: rest, envs⟩)
    (otherCopied :
      execRequest crates fuel task.aspace pathAddr otherArgv envp =
        .ok ⟨path, second :: rest, envs⟩) :
    RunsPath crates path task (sysExecve crates fuel task pathAddr argv envp)
        (sysExecve crates fuel task pathAddr otherArgv envp) ↔
      (task.threads ≤ 1 →
        SamePrograms crates spec fuel task.aspace path
          ⟨path, first :: rest, envs⟩ ⟨path, second :: rest, envs⟩) := by
  have succeeds := exact.sysExecve_succeeds_iff copied
  have otherSucceeds := exact.sysExecve_succeeds_iff otherCopied
  constructor
  · intro runsPath single
    have together := runsPath.together
    rw [succeeds, otherSucceeds, and_iff_right single, and_iff_right single] at together
    have both (plan plan' : ExecPlan)
        (feasible : plan.Feasible crates task.aspace fuel ⟨path, first :: rest, envs⟩)
        (otherFeasible : plan'.Feasible crates task.aspace fuel ⟨path, second :: rest, envs⟩) :
        plan.parser.entry = plan'.parser.entry ∧
          (∀ addr, ¬ crates.config.InStack addr →
            plan.byteAt crates spec task.aspace envs addr =
              plan'.byteAt crates spec task.aspace envs addr) ∧
          ∀ elf, PlainElf crates path elf →
            plan.Holds crates spec task.aspace envs elf ∧
              plan'.Holds crates spec task.aspace envs elf := by
      obtain ⟨after, ran, bytes⟩ := exact.sysExecve_of_feasible copied single feasible
      obtain ⟨otherAfter, otherRan, otherBytes⟩ :=
        exact.sysExecve_of_feasible otherCopied single otherFeasible
      rw [ran, otherRan] at runsPath
      have alike := runsPath.alike rfl
      refine ⟨alike.entry, ?_, ?_⟩
      · intro addr outside
        rw [← bytes, ← otherBytes]
        exact alike.bytes addr outside
      · intro elf plain
        obtain ⟨runs, otherRuns⟩ := runsPath.program rfl elf plain
        exact ⟨(exact.runsProgram_iff feasible rfl bytes).mp runs,
            (exact.runsProgram_iff otherFeasible rfl otherBytes).mp otherRuns⟩
    exact ⟨together, fun plan plan' one two => (both plan plan' one two).1,
        fun plan plan' one two => (both plan plan' one two).2.1,
        fun plan plan' one two => (both plan plan' one two).2.2⟩
  · intro same
    have together :
        (sysExecve crates fuel task pathAddr argv envp).1 = .ok 0 ↔
          (sysExecve crates fuel task pathAddr otherArgv envp).1 = .ok 0 := by
      rw [succeeds, otherSucceeds]
      exact and_congr_right fun single => (same single).together
    have leads (isOk : (sysExecve crates fuel task pathAddr argv envp).1 = .ok 0) :
        (∀ elf, PlainElf crates path elf →
          RunsProgram crates elf task (sysExecve crates fuel task pathAddr argv envp).2 ∧
            RunsProgram crates elf task (sysExecve crates fuel task pathAddr otherArgv envp).2) ∧
          AlikeButStack crates.config (sysExecve crates fuel task pathAddr argv envp).2
            (sysExecve crates fuel task pathAddr otherArgv envp).2 := by
      obtain ⟨single, plan, feasible⟩ := succeeds.mp isOk
      obtain ⟨-, plan', otherFeasible⟩ := otherSucceeds.mp (together.mp isOk)
      obtain ⟨after, ran, bytes⟩ := exact.sysExecve_of_feasible copied single feasible
      obtain ⟨otherAfter, otherRan, otherBytes⟩ :=
        exact.sysExecve_of_feasible otherCopied single otherFeasible
      have agree := same single
      rw [ran, otherRan]
      refine ⟨?_, ?_⟩
      · intro elf plain
        obtain ⟨holds, otherHolds⟩ := agree.holds plan plan' feasible otherFeasible elf plain
        exact ⟨(exact.runsProgram_iff feasible rfl bytes).mpr holds,
            (exact.runsProgram_iff otherFeasible rfl otherBytes).mpr otherHolds⟩
      · refine ⟨agree.entry plan plan' feasible otherFeasible, rfl, rfl, rfl, rfl, ?_⟩
        intro addr outside
        exact
          ((bytes addr).trans (agree.bytes plan plan' feasible otherFeasible addr outside)).trans
            (otherBytes addr).symm
    exact ⟨together, fun isOk => (leads isOk).1, fun isOk => (leads isOk).2⟩

theorem exactCrates_plainDisk (files : List Str) :
    ExactCrates (plainDisk files) (.holding fun _ _ => 0) where
  describes := AxmmSpec.describes_holding fun _ _ => 0
  whole := x86_wholePages
  trampoline := (by decide : PlatConfig.x86.signalTrampoline % pageSize4k = 0)
  trampolinePaddr := rfl
  nonempty _ _ _ := List.cons_ne_nil _ _

/-- Both names lead to the program at the path `a`. -/
theorem sysExecve_runs_path_iff_twoNames :
    (sysExecve (plainDisk [Str.lit "a", Str.lit "b"]) 8 twoNamesTask 0x1000
        0x1008 0x1010).1 = .ok 0 ∧
      RunsPath (plainDisk [Str.lit "a", Str.lit "b"]) (Str.lit "a") twoNamesTask
        (sysExecve (plainDisk [Str.lit "a", Str.lit "b"]) 8 twoNamesTask 0x1000 0x1008 0x1010)
        (sysExecve (plainDisk [Str.lit "a", Str.lit "b"]) 8 twoNamesTask 0x1000 0x1018 0x1010) := by
  have fits (request : ExecRequest) :
      ArgsFitStack (plainDisk [Str.lit "a", Str.lit "b"]) 8
        twoNamesTask.aspace request := by
    intro plan _ _
    change [(0 : UInt8)].length ≤ 0x10000
    decide
  refine ⟨by decide +kernel, ?_⟩
  refine (sysExecve_runs_path_iff (plainDisk [Str.lit "a", Str.lit "b"])
      (.holding fun _ _ => 0) 8 (exactCrates_plainDisk _) twoNamesTask 0x1000
      0x1008 0x1018 0x1010 (Str.lit "a") (Str.lit "a") (Str.lit "b") [] []
      (by decide +kernel) (by decide +kernel)).mpr ?_
  intro _
  exact samePrograms_of_contents x86_wholePages rfl (by decide +kernel) (fits _) (fits _)

/-- With the first argument `b`, which names no file, the program `a` is not
run. -/
theorem sysExecve_first_argument_decides :
    (sysExecve (plainDisk [Str.lit "a"]) 8 twoNamesTask 0x1000 0x1008 0x1010).1 = .ok 0 ∧
      (sysExecve (plainDisk [Str.lit "a"]) 8 twoNamesTask 0x1000 0x1018
        0x1010).1 = .error (.err .ENOENT) ∧
      ¬ RunsPath (plainDisk [Str.lit "a"]) (Str.lit "a") twoNamesTask
        (sysExecve (plainDisk [Str.lit "a"]) 8 twoNamesTask 0x1000 0x1008 0x1010)
        (sysExecve (plainDisk [Str.lit "a"]) 8 twoNamesTask 0x1000 0x1018 0x1010) := by
  have succeeds :
      (sysExecve (plainDisk [Str.lit "a"]) 8 twoNamesTask 0x1000 0x1008 0x1010).1 = .ok 0 := by
    decide +kernel
  have fails :
      (sysExecve (plainDisk [Str.lit "a"]) 8 twoNamesTask 0x1000 0x1018
        0x1010).1 = .error (.err .ENOENT) := by
    decide +kernel
  refine ⟨succeeds, fails, ?_⟩
  intro runsPath
  have alsoSucceeds := runsPath.together.mp succeeds
  rw [fails] at alsoSucceeds
  cases alsoSucceeds

end Vegar.Task

import Vegar.Task.ExecProgram

/-!
# The image that `sys_execve` leaves

The signal trampoline, the segments of the program that the chain of scripts
and interpreters ends at, the stack with the arguments, and the heap.
-/

namespace Vegar.Mm

open Vegar.Lib

/-! ## Taking ranges of a room -/

namespace Room

def take (room : Room) (start size : Nat) : Room :=
  { room with taken := room.taken ∪ { number | Touches start size number } }

def addAll (room : Room) (segments : List Segment) : Room := segments.foldl add room

variable {room : Room} {number : Nat}

theorem mem_take {start size : Nat} :
    number ∈ (room.take start size).taken ↔
      number ∈ room.taken ∨ Touches start size number :=
  Iff.rfl

theorem mem_addAll {segments : List Segment} :
    number ∈ (room.addAll segments).taken ↔
      number ∈ room.taken ∨ ∃ segment ∈ segments, number ∈ segment.pages := by
  induction segments generalizing room with
  | nil => simp [addAll]
  | cons segment rest ih =>
      have later := @ih (room.add segment)
      rw [addAll, List.foldl_cons]
      refine later.trans ?_
      rw [List.exists_mem_cons_iff, ← or_assoc]
      rfl

end Room

theorem room_withRange_take (aspace : AddrSpace) (start size : Nat) (page : Page) :
    (aspace.withRange start size (some page)).room =
      aspace.room.take start size := by
  apply Room.ext
  · rfl
  · rfl
  · apply Set.ext
    intro number
    have mapped := @isMapped_withRange aspace start size number (some page)
    refine mapped.trans ?_
    change _ ↔ aspace.IsMapped number ∨ Touches start size number
    by_cases touches : Touches start size number
    · rw [if_pos touches]
      exact iff_of_true rfl (Or.inr touches)
    · rw [if_neg touches, or_iff_left touches]

theorem room_emptied (aspace : AddrSpace) :
    aspace.emptied.room = ⟨aspace.base, aspace.size, ∅⟩ := by
  apply Room.ext
  · rfl
  · rfl
  · apply Set.ext
    intro number
    exact iff_of_false Bool.false_ne_true (Set.notMem_empty number)

/-- `map_linear` maps a page that is inside and free, and fails on others. -/
structure Axmm.Linear (axmm : Axmm) : Prop where
  maps :
    ∀ aspace vaddr paddr flags, vaddr % pageSize4k = 0 → paddr % pageSize4k = 0 →
      aspace.room.Accepts vaddr pageSize4k →
        ∃ after,
          axmm.mapLinear aspace vaddr paddr pageSize4k flags = (.ok (), after) ∧
            after.room = aspace.room.take vaddr pageSize4k
  refuses :
    ∀ aspace vaddr paddr flags, vaddr % pageSize4k = 0 → paddr % pageSize4k = 0 →
      ¬ aspace.room.Accepts vaddr pageSize4k →
        ∃ error after, axmm.mapLinear aspace vaddr paddr pageSize4k flags = (.error error, after)

theorem Axmm.nonempty_linear : Axmm.nonempty.Linear where
  maps aspace vaddr paddr flags _ _ accepts :=
    ⟨_, mapPages_of_accepts accepts, room_withRange_take aspace vaddr pageSize4k _⟩
  refuses aspace vaddr paddr flags _ _ refused := by
    obtain ⟨error, failed⟩ := mapPages_of_refused _ (by decide) refused
    exact ⟨error, aspace, failed⟩

/-! ## The program at the end of the chain -/

section Chain

variable {crates : LoaderCrates}

theorem resolve_ok {fuel : Nat} {argv args : List Str} {elf : ElfFile}
    (resolved : resolve crates fuel argv = .ok (elf, args)) :
    argv <:+ args ∧ ∃ program rest, args = program :: rest ∧
      PlainElf crates program elf := by
  induction fuel generalizing argv with
  | zero => cases resolved
  | succ fuel ih =>
      cases argv with
      | nil => cases resolved
      | cons program rest =>
          have restarts :
              ∀ front,
                resolve crates fuel (front ++ program :: rest) = .ok (elf, args) →
                  program :: rest <:+ args ∧
                    ∃ last others, args = last :: others ∧
                      PlainElf crates last elf := by
            intro front later
            obtain ⟨behind, plain⟩ := ih later
            exact ⟨(List.suffix_append front _).trans behind, plain⟩
          unfold resolve at resolved
          cases isRead : crates.readFile program with
          | error error =>
              rw [isRead] at resolved
              cases resolved
          | ok fileData =>
              simp only [isRead] at resolved
              by_cases script : fileData.take 2 = scriptMagic
              · simp only [if_pos script] at resolved
                split at resolved
                · cases resolved
                · exact restarts _ resolved
              · simp only [if_neg script] at resolved
                cases parsed : crates.parseElf fileData with
                | none =>
                    rw [parsed] at resolved
                    cases resolved
                | some found =>
                    simp only [parsed] at resolved
                    cases noInterp : found.interp with
                    | none =>
                        rw [noInterp] at resolved
                        obtain ⟨rfl, rfl⟩ := Prod.mk.inj (Except.ok.inj resolved)
                        exact ⟨List.suffix_rfl, program, rest, rfl,
                            ⟨fileData, isRead, script, parsed⟩, noInterp⟩
                    | some interp =>
                        simp only [noInterp] at resolved
                        cases interp with
                        | otherwise => cases resolved
                        | undefined data =>
                            simp only at resolved
                            split at resolved
                            · cases resolved
                            · next path isPath =>
                                exact restarts [path] resolved

end Chain

/-! ## The segments -/

section Segments

variable {crates : LoaderCrates} {elf : ElfFile} {aspace : AddrSpace}

def OutsideSegments (segments : List Segment) (addr : Nat) : Prop := ∀ segment ∈ segments,
    ¬ (segment.vaddr ≤ addr ∧ addr < segment.vaddr + segment.filesz) ∧
      addr / pageSize4k ∉ segment.pages

theorem mapSegments_takes (loading : crates.axmm.Loading) {segments : List Segment}
    (handled : aspace.room.HandlesAll elf.input segments)
    (loadsAll : aspace.room.LoadsAll elf.input segments) :
    ∃ after, (mapSegments crates elf segments).runOn aspace = (.ok (), after) ∧
      after.room = aspace.room.addAll segments ∧
      ∀ addr, OutsideSegments segments addr → after.byteAt addr = aspace.byteAt addr := by
  induction segments generalizing aspace with
  | nil => exact ⟨aspace, rfl, rfl, fun _ _ => rfl⟩
  | cons segment rest ih =>
      obtain ⟨loads, restLoads⟩ := loadsAll
      obtain ⟨between, ran, nextRoom, overlays⟩ := mapSegment_loads loading handled.1 loads
      have restHandled := handled.2 loads
      rw [← nextRoom] at restHandled restLoads
      obtain ⟨after, restRan, restRoom, restKept⟩ := ih restHandled restLoads
      refine ⟨after, ?_, ?_, ?_⟩
      · simp only [mapSegments, AspaceM.runOn_bind, ran, restRan]
      · rw [restRoom, nextRoom]
        rfl
      · intro addr outside
        obtain ⟨notData, notPage⟩ := outside segment List.mem_cons_self
        have later : OutsideSegments rest addr :=
          fun other member => outside other (List.mem_cons_of_mem _ member)
        rw [restKept addr later, overlays addr, if_neg notData]
        exact if_neg notPage

theorem mapElf_ok_iff (loading : crates.axmm.Loading) {parser : ElfParser}
    (parsed : crates.elfParser elf crates.config.userInterpBase aspace.base = some parser) :
    (∃ value, ((mapElf crates elf).runOn aspace).1 = .ok value) ↔
      aspace.room.HandlesAll elf.input parser.phLoad ∧
        aspace.room.LoadsAll elf.input parser.phLoad := by
  have ran := mapElf_parsed parsed
  constructor
  · intro succeeds
    obtain ⟨value, isOk⟩ := succeeds
    have handled : aspace.room.HandlesAll elf.input parser.phLoad := by
      by_contra unhandled
      rw [ran, mapSegments_panics loading unhandled] at isOk
      cases isOk
    refine ⟨handled, ?_⟩
    by_contra refused
    obtain ⟨error, failed⟩ := mapSegments_refused loading handled refused
    rw [ran, failed] at isOk
    cases isOk
  · intro both
    obtain ⟨after, loaded, -, -⟩ := mapSegments_takes loading both.1 both.2
    rw [ran, loaded]
    exact ⟨_, rfl⟩

theorem mapElf_image (loading : crates.axmm.Loading) {parser : ElfParser}
    (parsed : crates.elfParser elf crates.config.userInterpBase aspace.base = some parser)
    {value : Nat × List (Nat × Nat)} {loaded : AddrSpace}
    (ran : (mapElf crates elf).runOn aspace = (.ok value, loaded)) :
    value = (parser.entry, parser.auxv) ∧ loaded.room = aspace.room.addAll parser.phLoad ∧
      (∀ addr, OutsideSegments parser.phLoad addr → loaded.byteAt addr = aspace.byteAt addr) ∧
      (Agree elf.input parser.phLoad →
        ∀ segment ∈ parser.phLoad, Shows elf.input loaded segment) := by
  obtain ⟨handled, loads⟩ := (mapElf_ok_iff loading parsed).mp ⟨value, congrArg Prod.fst ran⟩
  obtain ⟨after, took, isRoom, kept⟩ := mapSegments_takes loading handled loads
  obtain ⟨same, shownRan, shown⟩ := @mapSegments_loads crates elf aspace loading [] _ handled loads
  rw [took] at shownRan
  obtain rfl := (Prod.mk.inj shownRan).2
  rw [mapElf_parsed parsed, took] at ran
  obtain ⟨isValue, rfl⟩ := Prod.mk.inj ran
  refine ⟨(Except.ok.inj isValue).symm, isRoom, kept, ?_⟩
  intro agree segment member
  exact shown agree nofun segment member

end Segments

/-! ## Stack and heap -/

section Image

variable {crates : LoaderCrates} {elf : ElfFile} {aspace : AddrSpace}

theorem room_withStack (loaded : AddrSpace) :
    (withStack crates loaded).room =
      loaded.room.take crates.config.userStackBase
        crates.config.userStackSize :=
  room_withRange_take loaded _ _ _

theorem room_withStackAndHeap (loaded : AddrSpace) :
    (withStackAndHeap crates loaded).room =
      (loaded.room.take crates.config.userStackBase
        crates.config.userStackSize).take crates.config.userHeapBase
          crates.config.userHeapSize := by
  rw [← room_withStack]
  exact room_withRange_take _ _ _ _

def InStackOrHeap (config : PlatConfig) (number : Nat) : Prop :=
  Touches config.userStackBase config.userStackSize number ∨
    Touches config.userHeapBase config.userHeapSize number

def OnTop (config : PlatConfig) (data : List UInt8) (addr : Nat) : Prop :=
  config.userStackTop - data.length ≤ addr ∧ addr < config.userStackTop

instance (config : PlatConfig) (data : List UInt8) (addr : Nat) :
    Decidable (OnTop config data addr) :=
  inferInstanceAs (Decidable (_ ∧ _))

structure Writable (config : PlatConfig) (room : Room) (data : List UInt8) : Prop where
  notLonger : data.length ≤ config.userStackTop
  onPages : ∀ addr, OnTop config data addr → addr / pageSize4k ∈ room.taken

section Writes

variable {axmm : Axmm} {config : PlatConfig} {space after : AddrSpace} {data : List UInt8}

theorem Writable.of_write (loading : axmm.Loading) (notLonger : data.length ≤ config.userStackTop)
    (wrote : axmm.write space (config.userStackTop - data.length) data = (.ok (), after)) :
    Writable config space.room data := by
  refine ⟨notLonger, ?_⟩
  intro addr onTop
  by_contra unmapped
  obtain ⟨lower, upper⟩ := onTop
  have hits := Nat.add_sub_cancel' lower
  obtain ⟨error, left, failed⟩ := loading.faults space (config.userStackTop - data.length) data
      ⟨addr - (config.userStackTop - data.length), by omega, by rw [hits]; exact unmapped⟩
  rw [failed] at wrote
  cases (Prod.mk.inj wrote).1

theorem Writable.write (writable : Writable config space.room data) (loading : axmm.Loading)
    (nonempty : data ≠ []) :
    ∃ after,
      axmm.write space (config.userStackTop - data.length) data = (.ok (), after) ∧
        after.room = space.room ∧
        ∀ addr, after.byteAt addr =
          if OnTop config data addr then
            data[addr - (config.userStackTop - data.length)]?
          else space.byteAt addr := by
  have isLong := List.length_pos_iff.mpr nonempty
  have notLonger := writable.notLonger
  have inMemory (index : Nat) (inside : index < data.length) :
      space.IsMapped ((config.userStackTop - data.length + index) / pageSize4k) := by
    apply writable.onPages
    simp only [OnTop]
    omega
  obtain ⟨after, wrote, sameBase, sameSize, bytes⟩ :=
    loading.writes space (config.userStackTop - data.length) data (inMemory 0 isLong) inMemory
  rw [Nat.sub_add_cancel notLonger] at bytes
  refine ⟨after, wrote, ?_, bytes⟩
  apply AddrSpace.room_eq sameBase sameSize
  intro addr
  rw [bytes]
  by_cases onTop : OnTop config data addr
  · have mapped := (AddrSpace.isSome_byteAt addr).mpr (writable.onPages addr onTop)
    obtain ⟨lower, upper⟩ := onTop
    rw [if_pos ⟨lower, upper⟩, mapped, List.getElem?_eq_getElem (by omega)]
    rfl
  · rw [if_neg]
    exact onTop

end Writes

/-- With room for the stack and the heap, what is left of `load_user_app` is
to write the data for the stack. -/
theorem loadImage_ok_iff (loading : crates.axmm.Loading) (whole : crates.config.WholePages)
    {args envs : List Str} {entry : Nat} {auxv : List (Nat × Nat)}
    {loaded after : AddrSpace} {value : Nat × Nat}
    (ran : (mapElf crates elf).runOn aspace = (.ok (entry, auxv), loaded))
    (room : HasRoom crates loaded) {data : List UInt8}
    (isData : stackData crates args envs auxv = data) :
    (loadImage crates elf args envs).runOn aspace = (.ok value, after) ↔
      data.length ≤ crates.config.userStackTop ∧
        crates.axmm.write (withStackAndHeap crates loaded)
            (crates.config.userStackTop - data.length) data =
          (.ok (), after) ∧
        (entry, crates.config.userStackTop - data.length) = value := by
  have stackMapped :
      crates.axmm.mapAlloc loaded crates.config.userStackBase
          crates.config.userStackSize .userData true =
        (.ok (), withStack crates loaded) :=
    loading.maps _ _ _ _ whole.stackBase whole.stackSize room.stack
  have heapMapped :
      crates.axmm.mapAlloc (withStack crates loaded)
          crates.config.userHeapBase crates.config.userHeapSize .userData
          true =
        (.ok (), withStackAndHeap crates loaded) :=
    loading.maps _ _ _ _ whole.heapBase whole.heapSize room.heap
  rw [← Nat.not_lt]
  simp only [loadImage_runOn ran, stackMapped, heapMapped, isData]
  by_cases longer : crates.config.userStackTop < data.length
  · simp only [longer, if_true, not_true_eq_false, false_and, Prod.mk.injEq, reduceCtorEq]
  · simp only [longer, if_false, not_false_eq_true, true_and]
    rcases crates.axmm.write (withStackAndHeap crates loaded)
        (crates.config.userStackTop - data.length) data
      with ⟨error | _, wrote⟩
    · simp only [Prod.mk.injEq, reduceCtorEq, false_and]
    · simp only [Prod.mk.injEq, Except.ok.injEq, true_and]
      exact and_comm

/-- A program that is loaded had its segments mapped, room for the stack and
the heap, and its data for the stack could be written. -/
theorem writable_of_loadImage (loading : crates.axmm.Loading) (whole : crates.config.WholePages)
    {args envs : List Str} {value : Nat × Nat} {after : AddrSpace}
    (ran : (loadImage crates elf args envs).runOn aspace = (.ok value, after)) :
    ∃ auxv loaded,
      (mapElf crates elf).runOn aspace = (.ok (value.1, auxv), loaded) ∧ HasRoom crates loaded ∧
        Writable crates.config (withStackAndHeap crates loaded).room
          (stackData crates args envs auxv) := by
  obtain ⟨auxv, loaded, segments, room⟩ := hasRoom_of_loadImage loading whole ran
  obtain ⟨notLonger, wrote, -⟩ := (loadImage_ok_iff loading whole segments room rfl).mp ran
  exact ⟨auxv, loaded, segments, room, .of_write loading notLonger wrote⟩

end Image

end Vegar.Mm

namespace Vegar.Task

open Vegar.Lib Vegar.Mm

/-! ## The plan of a call -/

structure ExecPlan where
  elf : ElfFile
  args : List Str
  parser : ElfParser

namespace ExecPlan

variable (crates : LoaderCrates) (plan : ExecPlan) (envs : List Str) (before : AddrSpace)

def trampolineRoom : Room :=
  Room.take ⟨before.base, before.size, ∅⟩ crates.config.signalTrampoline pageSize4k

def segmentsRoom : Room := (trampolineRoom crates before).addAll plan.parser.phLoad

def stackRoom : Room :=
  (plan.segmentsRoom crates before).take crates.config.userStackBase crates.config.userStackSize

def finalRoom : Room :=
  (plan.stackRoom crates before).take crates.config.userHeapBase crates.config.userHeapSize

theorem mem_finalRoom (number : Nat) :
    number ∈ (plan.finalRoom crates before).taken ↔
      Touches crates.config.signalTrampoline pageSize4k number ∨
        (∃ segment ∈ plan.parser.phLoad, number ∈ segment.pages) ∨
        InStackOrHeap crates.config number := by
  rw [finalRoom, Room.mem_take, stackRoom, Room.mem_take, segmentsRoom,
    Room.mem_addAll, trampolineRoom, Room.mem_take, InStackOrHeap]
  rw [or_assoc, or_assoc, or_assoc]
  exact or_iff_right (Set.notMem_empty number)

def data : List UInt8 := stackData crates plan.args envs plan.parser.auxv

def userSp : Nat := crates.config.userStackTop - (plan.data crates envs).length

structure Feasible (fuel : Nat) (request : ExecRequest) : Prop where
  resolved : resolve crates fuel request.args = .ok (plan.elf, plan.args)
  parsed : crates.elfParser plan.elf crates.config.userInterpBase before.base = some plan.parser
  trampoline : Room.Accepts ⟨before.base, before.size, ∅⟩ crates.config.signalTrampoline pageSize4k
  handled : (trampolineRoom crates before).HandlesAll plan.elf.input plan.parser.phLoad
  loads : (trampolineRoom crates before).LoadsAll plan.elf.input plan.parser.phLoad
  stack :
    (plan.segmentsRoom crates before).Accepts crates.config.userStackBase
      crates.config.userStackSize
  heap :
    (plan.stackRoom crates before).Accepts crates.config.userHeapBase crates.config.userHeapSize
  writable : Writable crates.config (plan.finalRoom crates before) (plan.data crates request.envs)

end ExecPlan

/-- What a call leaves.  `trampoline` is an address space with the signal
trampoline alone. -/
structure ExecImage (crates : LoaderCrates) (plan : ExecPlan) (request : ExecRequest)
    (before : ExecTask) (trampoline : AddrSpace) (after : ExecTask) :
    Prop where
  task :
    after =
      executed before request.path plan.parser.entry (plan.userSp crates request.envs) after.aspace
  arguments : request.args <:+ plan.args
  program : ∃ program rest, plan.args = program :: rest ∧ PlainElf crates program plan.elf
  mapped :
    ∀ number, after.aspace.IsMapped number ↔
      Touches crates.config.signalTrampoline pageSize4k number ∨
        (∃ segment ∈ plan.parser.phLoad, number ∈ segment.pages) ∨
        InStackOrHeap crates.config number
  stack :
    ∀ addr, OnTop crates.config (plan.data crates request.envs) addr →
      after.aspace.byteAt addr =
        (plan.data crates request.envs)[addr - plan.userSp crates request.envs]?
  zeros :
    ∀ addr, ¬ OnTop crates.config (plan.data crates request.envs) addr →
      InStackOrHeap crates.config (addr / pageSize4k) → after.aspace.byteAt addr = some 0
  segments :
    Agree plan.elf.input plan.parser.phLoad →
      ∀ segment ∈ plan.parser.phLoad, ∀ addr byte,
        ¬ OnTop crates.config (plan.data crates request.envs) addr →
        segment.byteAt plan.elf.input addr = some byte → after.aspace.byteAt addr = some byte
  trampolineKept :
    ∀ addr, ¬ OnTop crates.config (plan.data crates request.envs) addr →
      OutsideSegments plan.parser.phLoad addr →
      (trampoline.byteAt addr).isSome → after.aspace.byteAt addr = trampoline.byteAt addr

/-! ## Success -/

section Success

variable {crates : LoaderCrates} {fuel : Nat}

structure ExecCrates (crates : LoaderCrates) : Prop where
  unmaps : crates.axmm.UnmapsUserAreas
  linear : crates.axmm.Linear
  loading : crates.axmm.Loading
  whole : crates.config.WholePages
  trampoline : crates.config.signalTrampoline % pageSize4k = 0
  trampolinePaddr : crates.trampolinePaddr % pageSize4k = 0
  nonempty : ∀ args envs auxv, stackData crates args envs auxv ≠ []

theorem ExecCrates.mapTrampoline_ok_iff (sound : ExecCrates crates) (before : AddrSpace) :
    (∃ trampoline, (mapTrampoline crates).runOn before.emptied = (.ok (), trampoline)) ↔
      Room.Accepts ⟨before.base, before.size, ∅⟩
        crates.config.signalTrampoline pageSize4k := by
  rw [← room_emptied, mapTrampoline, AspaceM.runOn_ofAxmm]
  constructor
  · intro mapped
    by_contra refused
    obtain ⟨trampoline, isMapped⟩ := mapped
    obtain ⟨error, left, failed⟩ := sound.linear.refuses _ _ crates.trampolinePaddr .userText
        sound.trampoline sound.trampolinePaddr refused
    rw [failed] at isMapped
    cases (Prod.mk.inj isMapped).1
  · intro accepts
    obtain ⟨trampoline, mapped, -⟩ := sound.linear.maps _ _ crates.trampolinePaddr .userText
        sound.trampoline sound.trampolinePaddr accepts
    exact ⟨trampoline, by rw [mapped]⟩

theorem ExecCrates.room_of_mapTrampoline (sound : ExecCrates crates) {before trampoline : AddrSpace}
    (mapped : (mapTrampoline crates).runOn before.emptied = (.ok (), trampoline)) :
    trampoline.room = ExecPlan.trampolineRoom crates before := by
  have accepts := (sound.mapTrampoline_ok_iff before).mp ⟨trampoline, mapped⟩
  rw [← room_emptied] at accepts
  obtain ⟨again, mappedAgain, room⟩ := sound.linear.maps _ _ crates.trampolinePaddr .userText
      sound.trampoline sound.trampolinePaddr accepts
  rw [mapTrampoline, AspaceM.runOn_ofAxmm, mappedAgain] at mapped
  obtain rfl := (Prod.mk.inj mapped).2
  rw [room, room_emptied]
  rfl

theorem ExecCrates.feasible_of_replaceImage (sound : ExecCrates crates) {request : ExecRequest}
    {before after : AddrSpace} {value : Nat × Nat}
    (ran : (replaceImage crates fuel request.args request.envs).runOn before = (.ok value, after)) :
    ∃ plan : ExecPlan, plan.Feasible crates before fuel request := by
  obtain ⟨trampoline, elf, args, mapped, resolved, loadedImage⟩ :=
    (replaceImage_ok_iff sound.unmaps).mp ran
  have trampolineRoom := sound.room_of_mapTrampoline mapped
  have sameBase : trampoline.base = before.base := congrArg Room.base trampolineRoom
  obtain ⟨auxv, loaded, segments, room, writable⟩ :=
    writable_of_loadImage sound.loading sound.whole loadedImage
  obtain ⟨parser, isParser, rfl⟩ := elfParser_of_mapElf segments
  obtain ⟨-, loadedRoom, -⟩ := mapElf_image sound.loading isParser segments
  obtain ⟨handled, loads⟩ :=
    (mapElf_ok_iff sound.loading isParser).mp ⟨_, congrArg Prod.fst segments⟩
  have stackRoom := room.stack
  have heapRoom := room.heap
  rw [trampolineRoom] at handled loads loadedRoom
  rw [loadedRoom] at stackRoom
  rw [room_withStack, loadedRoom] at heapRoom
  rw [room_withStackAndHeap, loadedRoom] at writable
  rw [sameBase] at isParser
  exact ⟨⟨elf, args, parser⟩, resolved, isParser,
      (sound.mapTrampoline_ok_iff before).mp ⟨trampoline, mapped⟩, handled,
      loads, stackRoom, heapRoom, writable⟩

structure ImageBytes (crates : LoaderCrates) (plan : ExecPlan) (envs : List Str)
    (loaded after : AddrSpace) : Prop where
  hasRoom : HasRoom crates loaded
  bytes :
    ∀ addr, after.byteAt addr =
      if OnTop crates.config (plan.data crates envs) addr then
        (plan.data crates envs)[addr - plan.userSp crates envs]?
      else (withStackAndHeap crates loaded).byteAt addr

theorem ImageBytes.keeps {plan : ExecPlan} {envs : List Str} {loaded after : AddrSpace}
    (image : ImageBytes crates plan envs loaded after) {addr : Nat}
    {byte : UInt8}
    (outside : ¬ OnTop crates.config (plan.data crates envs) addr)
    (was : loaded.byteAt addr = some byte) :
    after.byteAt addr = some byte := by
  rw [image.bytes, if_neg outside]
  exact (image.hasRoom.byteAt was).2

theorem ImageBytes.zeros {plan : ExecPlan} {envs : List Str} {loaded after : AddrSpace}
    (image : ImageBytes crates plan envs loaded after) {addr : Nat}
    (outside : ¬ OnTop crates.config (plan.data crates envs) addr)
    (fresh : InStackOrHeap crates.config (addr / pageSize4k)) :
    after.byteAt addr = some 0 := by
  rw [image.bytes, if_neg outside, withStackAndHeap,
    AddrSpace.byteAt_withRange, withStack, AddrSpace.byteAt_withRange]
  rcases fresh with onStack | onHeap
  · rw [if_pos onStack, ite_self]
  · rw [if_pos onHeap]

theorem ExecCrates.replaceImage_of_feasible
    (sound : ExecCrates crates) {request : ExecRequest} {plan : ExecPlan}
    {before : AddrSpace}
    (feasible : plan.Feasible crates before fuel request) :
    ∃ trampoline loaded after, (mapTrampoline crates).runOn before.emptied = (.ok (), trampoline) ∧
      (mapElf crates plan.elf).runOn trampoline =
        (.ok (plan.parser.entry, plan.parser.auxv), loaded) ∧
      (replaceImage crates fuel request.args request.envs).runOn before =
        (.ok (plan.parser.entry, plan.userSp crates request.envs), after) ∧
      after.room = (withStackAndHeap crates loaded).room ∧
      ImageBytes crates plan request.envs loaded after := by
  obtain ⟨trampoline, mapped⟩ := (sound.mapTrampoline_ok_iff before).mpr feasible.trampoline
  have isTrampoline := sound.room_of_mapTrampoline mapped
  have sameBase : trampoline.base = before.base := congrArg Room.base isTrampoline
  have parsed := feasible.parsed
  have handled := feasible.handled
  have loads := feasible.loads
  rw [← isTrampoline] at handled loads
  rw [← sameBase] at parsed
  obtain ⟨⟨entry, auxv⟩, isOk⟩ := (mapElf_ok_iff sound.loading parsed).mpr ⟨handled, loads⟩
  rcases segments : (mapElf crates plan.elf).runOn trampoline with ⟨outcome, loaded⟩
  rw [segments] at isOk
  dsimp only at isOk
  rw [isOk] at segments
  obtain ⟨isValue, loadedRoom, -⟩ := mapElf_image sound.loading parsed segments
  obtain ⟨rfl, rfl⟩ := Prod.mk.inj isValue
  rw [isTrampoline] at loadedRoom
  have room : HasRoom crates loaded := by
    refine ⟨?_, ?_⟩
    · rw [loadedRoom]
      exact feasible.stack
    · rw [room_withStack, loadedRoom]
      exact feasible.heap
  have writable := feasible.writable
  rw [ExecPlan.finalRoom, ExecPlan.stackRoom, ExecPlan.segmentsRoom,
    ← loadedRoom, ← room_withStackAndHeap] at writable
  obtain ⟨after, wrote, afterRoom, bytes⟩ := writable.write sound.loading (sound.nonempty _ _ _)
  have built := (loadImage_ok_iff sound.loading sound.whole segments room rfl).mpr
      ⟨writable.notLonger, wrote, rfl⟩
  refine ⟨trampoline, loaded, after, mapped, segments, ?_, afterRoom, room, bytes⟩
  exact (replaceImage_ok_iff sound.unmaps).mpr
      ⟨trampoline, plan.elf, plan.args, mapped, feasible.resolved, built⟩

theorem ExecCrates.execImage_of_feasible
    (sound : ExecCrates crates) {request : ExecRequest} {plan : ExecPlan}
    {task : ExecTask}
    (feasible : plan.Feasible crates task.aspace fuel request) :
    ∃ after,
      (replaceImage crates fuel request.args request.envs).runOn task.aspace =
        (.ok (plan.parser.entry, plan.userSp crates request.envs), after) ∧
      ExecImage crates plan request task ((mapTrampoline crates).runOn task.aspace.emptied).2
        (executed task request.path plan.parser.entry (plan.userSp crates request.envs) after) := by
  obtain ⟨trampoline, loaded, after, mapped, segments, ran, room, image⟩ :=
    sound.replaceImage_of_feasible feasible
  have isTrampoline := sound.room_of_mapTrampoline mapped
  have parsed := feasible.parsed
  rw [show task.aspace.base = trampoline.base from
    (congrArg Room.base isTrampoline).symm] at parsed
  obtain ⟨-, loadedRoom, kept, shown⟩ := mapElf_image sound.loading parsed segments
  have isFinal :
      (withStackAndHeap crates loaded).room =
        plan.finalRoom crates task.aspace := by
    rw [room_withStackAndHeap, loadedRoom, isTrampoline]
    rfl
  obtain ⟨behind, plain⟩ := resolve_ok feasible.resolved
  refine ⟨after, ran, ?_⟩
  rw [mapped]
  refine ⟨rfl, behind, plain, ?_, ?_, ?_, ?_, ?_⟩
  · intro number
    have isAfter := room.trans isFinal
    rw [← plan.mem_finalRoom crates task.aspace, ← isAfter]
    rfl
  · intro addr onTop
    exact (image.bytes addr).trans (if_pos onTop)
  · intro addr outside fresh
    exact image.zeros outside fresh
  · intro agree segment member addr byte outside described
    exact image.keeps outside ((shown agree segment member).bytes _ _ described)
  · intro addr outside notSegment onTrampoline
    obtain ⟨byte, isByte⟩ := Option.isSome_iff_exists.mp onTrampoline
    have stillThere := kept addr notSegment
    rw [isByte] at stillThere
    rw [isByte]
    exact image.keeps outside stillThere

end Success

/-- `sys_execve` succeeds exactly if the arguments can be copied, the process
has one thread, and the chain of scripts and interpreters that starts at the
first argument ends at a program for whose segments, stack and heap there is
room beside the trampoline.  Then the address space holds these and nothing
else: the data for the stack below its top, zeros in the rest of the stack and
the heap, the bytes of the segments if they do not contradict each other, and
the trampoline. -/
theorem execve_leaves_program (crates : LoaderCrates) (fuel : Nat) (sound : ExecCrates crates)
    (task : ExecTask) (path argv envp : Nat) :
    ((sysExecve crates fuel task path argv envp).1 = .ok 0 ↔
      task.threads ≤ 1 ∧
        ∃ request,
          execRequest crates fuel task.aspace path argv envp = .ok request ∧
            ∃ plan : ExecPlan, plan.Feasible crates task.aspace fuel request) ∧
      ∀ request (plan : ExecPlan), (sysExecve crates fuel task path argv envp).1 = .ok 0 →
        execRequest crates fuel task.aspace path argv envp = .ok request →
        plan.Feasible crates task.aspace fuel request →
          ExecImage crates plan request task ((mapTrampoline crates).runOn task.aspace.emptied).2
            (sysExecve crates fuel task path argv envp).2 := by
  refine ⟨⟨?_, ?_⟩, ?_⟩
  · intro succeeds
    cases copied : execRequest crates fuel task.aspace path argv envp with
    | error fault =>
        simp only [sysExecve, copied] at succeeds
        cases succeeds
    | ok request =>
        obtain ⟨single, entry, userSp, aspace, ran, -⟩ :=
          (sysExecve_ok_iff copied).mp (Prod.ext succeeds rfl)
        exact ⟨single, request, rfl, sound.feasible_of_replaceImage ran⟩
  · intro both
    obtain ⟨single, request, copied, plan, feasible⟩ := both
    obtain ⟨after, ran, -⟩ := sound.execImage_of_feasible feasible
    have succeeds := (sysExecve_ok_iff copied).mpr ⟨single, _, _, after, ran, rfl⟩
    exact congrArg Prod.fst succeeds
  · intro request plan succeeds copied feasible
    obtain ⟨after, ran, image⟩ := sound.execImage_of_feasible feasible
    obtain ⟨single, -⟩ := (sysExecve_ok_iff copied).mp (Prod.ext succeeds rfl)
    rw [(sysExecve_ok_iff copied).mpr ⟨single, _, _, after, ran, rfl⟩]
    exact image

/-- A kernel with a script `a` for the interpreter `b`, which is a program with
four bytes of text. -/
def scriptDisk : LoaderCrates :=
  { plainDisk [] with
    readFile := fun path =>
      if path = Str.lit "a" then .ok [0x23, 0x21, 0x62, 0x0a]
      else if path = Str.lit "b" then .ok [0x7f, 1, 2, 3]
      else .error .NotFound
    elfParser := fun _ _ _ =>
      some ⟨[⟨0x1000, 0, 8, 4, .userText⟩], 0x1000, []⟩ }

theorem execve_leaves_program_script :
    ExecCrates scriptDisk ∧ (sysExecve scriptDisk 8 twoNamesTask 0x1000 0x1008 0x1010).1 = .ok 0 ∧
      ∃ request plan,
        ExecImage scriptDisk plan request twoNamesTask
          ((mapTrampoline scriptDisk).runOn twoNamesTask.aspace.emptied).2
          (sysExecve scriptDisk 8 twoNamesTask 0x1000 0x1008 0x1010).2 := by
  have sound : ExecCrates scriptDisk := by
    refine ⟨Axmm.reference_unmapsUserAreas, Axmm.nonempty_linear,
        Axmm.nonempty_loading, x86_wholePages, by decide, by decide, ?_⟩
    intro args envs auxv
    exact List.cons_ne_nil _ _
  have succeeds : (sysExecve scriptDisk 8 twoNamesTask 0x1000 0x1008 0x1010).1 = .ok 0 := by
    decide +kernel
  obtain ⟨succeedsIff, image⟩ :=
    execve_leaves_program scriptDisk 8 sound twoNamesTask 0x1000 0x1008 0x1010
  obtain ⟨-, request, copied, plan, feasible⟩ := succeedsIff.mp succeeds
  exact ⟨sound, succeeds, request, plan, image request plan succeeds copied feasible⟩

end Vegar.Task

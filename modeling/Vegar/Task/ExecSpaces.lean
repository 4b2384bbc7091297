import Vegar.Task.ExecImage

/-!
# Address spaces on the way to an image

Where the operations of `axmm` are known up to the page, so is the address
space at every point of `load_user_app`: after the trampoline, after each
segment, with the stack and with the heap.  When the loader fails, it leaves
what was there at that point.
-/

namespace Vegar.Mm

open Vegar.Lib

/-! ## Data on mapped pages -/

def AddrSpace.overlay (aspace : AddrSpace) (start : Nat) (data : List UInt8) : AddrSpace :=
  { aspace with
    pages := fun number =>
      (aspace.pages number).map fun page =>
        { page with
          bytes := fun offset =>
            let addr := number * pageSize4k + offset
            if addr < start then page.bytes offset
            else (data[addr - start]?).getD (page.bytes offset) } }

section Overlay

variable {aspace : AddrSpace} {start : Nat} {data : List UInt8}

theorem room_overlay : (aspace.overlay start data).room = aspace.room := by
  apply Room.ext
  · rfl
  · rfl
  · apply Set.ext
    intro number
    change ((aspace.pages number).map _).isSome = true ↔ (aspace.pages number).isSome = true
    rw [Option.isSome_map]

theorem overlay_nil : aspace.overlay start [] = aspace := by
  have samePages : (aspace.overlay start []).pages = aspace.pages := by
    funext number
    change (aspace.pages number).map _ = _
    cases aspace.pages number with
    | none => rfl
    | some page => simp
  exact congrArg (AddrSpace.mk aspace.base aspace.size) samePages

theorem byteAt_overlay (first : aspace.IsMapped (start / pageSize4k))
    (allMapped :
      ∀ index < data.length, aspace.IsMapped ((start + index) / pageSize4k)) (addr : Nat) :
    (aspace.overlay start data).byteAt addr =
      if start ≤ addr ∧ addr < start + data.length then data[addr - start]?
      else aspace.byteAt addr :=
  byteAt_storeBytes allMapped (if_pos (pageNumbers_mapped first allMapped)) addr

end Overlay

/-! ## The operations up to the page -/

/-- What the documentation of `axmm` leaves open: the contents of physical
memory, and how much of its data a failing `write` has stored. -/
structure AxmmSpec where
  physical : Nat → Fin pageSize4k → UInt8
  written : AddrSpace → Nat → List UInt8 → Nat

/-- A refused mapping changes nothing, and a failing `write` has stored a part
of its data. -/
structure AxmmSpec.Describes (spec : AxmmSpec) (axmm : Axmm) : Prop where
  unmaps : axmm.UnmapsUserAreas
  linear :
    ∀ aspace vaddr paddr flags, vaddr % pageSize4k = 0 → paddr % pageSize4k = 0 →
      aspace.room.Accepts vaddr pageSize4k →
        axmm.mapLinear aspace vaddr paddr pageSize4k flags =
          (.ok (), aspace.withRange vaddr pageSize4k (some ⟨flags, spec.physical paddr⟩))
  linearRefused :
    ∀ aspace vaddr paddr flags, vaddr % pageSize4k = 0 → paddr % pageSize4k = 0 →
      ¬ aspace.room.Accepts vaddr pageSize4k →
        ∃ error, axmm.mapLinear aspace vaddr paddr pageSize4k flags = (.error error, aspace)
  alloc :
    ∀ aspace start size flags, start % pageSize4k = 0 → size % pageSize4k = 0 →
      aspace.room.Accepts start size →
        axmm.mapAlloc aspace start size flags true =
          (.ok (), aspace.withRange start size (some (freshPage flags)))
  allocRefused :
    ∀ aspace start size flags, start % pageSize4k = 0 → size % pageSize4k = 0 →
      ¬ aspace.room.Accepts start size →
        ∃ error, axmm.mapAlloc aspace start size flags true = (.error error, aspace)
  write :
    ∀ aspace start data, aspace.IsMapped (start / pageSize4k) →
      (∀ index < data.length, aspace.IsMapped ((start + index) / pageSize4k)) →
        axmm.write aspace start data = (.ok (), aspace.overlay start data)
  writeFault :
    ∀ aspace start data,
      (∃ index < data.length, ¬ aspace.IsMapped ((start + index) / pageSize4k)) →
        ∃ error,
          axmm.write aspace start data =
            (.error error, aspace.overlay start (data.take (spec.written aspace start data)))

namespace AxmmSpec.Describes

variable {spec : AxmmSpec} {axmm : Axmm}

theorem loading (describes : spec.Describes axmm) : axmm.Loading where
  maps := describes.alloc
  refuses aspace start size flags wholeStart wholeSize refused := by
    obtain ⟨error, failed⟩ :=
      describes.allocRefused aspace start size flags wholeStart wholeSize refused
    exact ⟨error, aspace, failed⟩
  writes aspace start data first allMapped :=
    ⟨_, describes.write aspace start data first allMapped, rfl, rfl, byteAt_overlay first allMapped⟩
  faults aspace start data unmapped := by
    obtain ⟨error, failed⟩ := describes.writeFault aspace start data unmapped
    exact ⟨error, _, failed⟩

theorem isLinear (describes : spec.Describes axmm) : axmm.Linear where
  maps aspace vaddr paddr flags wholeStart wholePaddr accepts := by
    exact ⟨_, describes.linear aspace vaddr paddr flags wholeStart wholePaddr
        accepts, room_withRange_take aspace vaddr pageSize4k _⟩
  refuses aspace vaddr paddr flags wholeStart wholePaddr refused := by
    obtain ⟨error, failed⟩ :=
      describes.linearRefused aspace vaddr paddr flags wholeStart wholePaddr refused
    exact ⟨error, aspace, failed⟩

end AxmmSpec.Describes

def Axmm.holding (physical : Nat → Fin pageSize4k → UInt8) : Axmm :=
  { Axmm.nonempty with
    mapLinear := fun aspace vaddr paddr size flags =>
      Axmm.mapPages aspace vaddr size ⟨flags, physical paddr⟩ }

/-- A failing `write` stores nothing. -/
def AxmmSpec.holding (physical : Nat → Fin pageSize4k → UInt8) : AxmmSpec where
  physical := physical
  written _ _ _ := 0

theorem AxmmSpec.describes_holding (physical : Nat → Fin pageSize4k → UInt8) :
    (AxmmSpec.holding physical).Describes (Axmm.holding physical) where
  unmaps := Axmm.reference_unmapsUserAreas
  linear _ _ _ _ _ _ accepts := mapPages_of_accepts accepts
  linearRefused _ _ _ _ _ _ refused := mapPages_of_refused _ (by decide) refused
  alloc _ _ _ flags _ _ accepts := Axmm.nonempty_maps flags accepts
  allocRefused _ _ _ flags _ _ refused := Axmm.nonempty_refuses flags refused
  write _ _ _ first allMapped := if_pos (pageNumbers_mapped first allMapped)
  writeFault aspace start data unmapped := by
    refine ⟨.BadAddress, ?_⟩
    rw [show (AxmmSpec.holding physical).written aspace start data = 0
      from rfl, List.take_zero, overlay_nil]
    exact Axmm.storeBytes_of_unmapped unmapped

/-! ## Segments -/

namespace Segment

def mapped (segment : Segment) (aspace : AddrSpace) : AddrSpace :=
  aspace.withRange segment.start segment.alignSize (some (freshPage segment.flags))

def loaded (input : List UInt8) (aspace : AddrSpace) (segment : Segment) :
    AddrSpace :=
  (segment.mapped aspace).overlay segment.vaddr (segment.data input)

theorem room_mapped (segment : Segment) (aspace : AddrSpace) :
    (segment.mapped aspace).room = aspace.room.add segment :=
  AddrSpace.room_withRange segment segment.flags

theorem room_loaded (input : List UInt8) (aspace : AddrSpace) (segment : Segment) :
    (segment.loaded input aspace).room = aspace.room.add segment :=
  room_overlay.trans (segment.room_mapped aspace)

end Segment

def loadedAll (input : List UInt8) (aspace : AddrSpace) (segments : List Segment) : AddrSpace :=
  segments.foldl (Segment.loaded input) aspace

theorem room_loadedAll (input : List UInt8) (aspace : AddrSpace) (segments : List Segment) :
    (loadedAll input aspace segments).room =
      aspace.room.addAll segments := by
  induction segments generalizing aspace with
  | nil => rfl
  | cons segment rest ih =>
      rw [loadedAll, List.foldl_cons, ← loadedAll, ih, Segment.room_loaded]
      rfl

inductive SegmentStops (spec : AxmmSpec) (input : List UInt8)
    (aspace : AddrSpace) (segment : Segment) : AddrSpace → Prop
  | noRoom (refused : ¬ aspace.room.Fits segment) : SegmentStops spec input aspace segment aspace
  | noData (fits : aspace.room.Fits segment)
      (outside : input.length < segment.offset + segment.filesz) :
      SegmentStops spec input aspace segment (segment.mapped aspace)
  | noPage (fits : aspace.room.Fits segment)
      (inFile : segment.offset + segment.filesz ≤ input.length)
      (unmapped :
        ∃ index < segment.filesz,
          (segment.vaddr + index) / pageSize4k ∉ (aspace.room.add segment).taken) :
      SegmentStops spec input aspace segment
        ((segment.mapped aspace).overlay segment.vaddr
          ((segment.data input).take
            (spec.written (segment.mapped aspace) segment.vaddr (segment.data input))))

inductive SegmentsStop (spec : AxmmSpec) (input : List UInt8) :
    AddrSpace → List Segment → AddrSpace → Prop
  | here {aspace left : AddrSpace} {segment : Segment} {rest : List Segment}
      (handled : aspace.room.Handles segment)
      (stops : SegmentStops spec input aspace segment left) :
      SegmentsStop spec input aspace (segment :: rest) left
  | later {aspace left : AddrSpace} {segment : Segment} {rest : List Segment}
      (handled : aspace.room.Handles segment)
      (loads : aspace.room.Loads input segment)
      (stops : SegmentsStop spec input (segment.loaded input aspace) rest left) :
      SegmentsStop spec input aspace (segment :: rest) left

section Segments

variable {crates : LoaderCrates} {spec : AxmmSpec} {elf : ElfFile}
  {aspace left : AddrSpace} {segment : Segment}

theorem mapSegment_eq_loaded (describes : spec.Describes crates.axmm)
    (handled : aspace.room.Handles segment)
    (loads : aspace.room.Loads elf.input segment) :
    (mapSegment crates elf segment).runOn aspace = (.ok (), segment.loaded elf.input aspace) := by
  have onPages (number : Nat) (taken : number ∈ (aspace.room.add segment).taken) :
      (segment.mapped aspace).IsMapped number := by
    rw [← segment.room_mapped aspace] at taken
    exact taken
  have stored := describes.write (segment.mapped aspace) segment.vaddr (segment.data elf.input)
      (onPages _ (.inr (Segment.vaddr_mem_pages loads.fits.nonempty)))
      (by
        rw [data_length loads.inFile]
        exact fun index inside => onPages _ (loads.onPages index inside))
  have allocated :=
    describes.alloc aspace _ _ segment.flags segment.start_mod segment.alignSize_mod loads.fits
  rw [mapSegment_runOn, if_pos ⟨handled.congruent, handled.sizeFits⟩, allocated]
  simp only [if_pos (handled.endFits loads.fits), if_pos loads.inFile]
  rw [show crates.axmm.write (aspace.withRange segment.start
    segment.alignSize (some (freshPage segment.flags))) segment.vaddr
      (segment.data elf.input) = _ from stored]
  rfl

theorem handles_and_loads_of_mapSegment (describes : spec.Describes crates.axmm) {after : AddrSpace}
    (ran : (mapSegment crates elf segment).runOn aspace = (.ok (), after)) :
    aspace.room.Handles segment ∧ aspace.room.Loads elf.input segment := by
  have succeeds := congrArg Prod.fst ran
  by_cases handled : aspace.room.Handles segment
  · by_cases loads : aspace.room.Loads elf.input segment
    · exact ⟨handled, loads⟩
    · obtain ⟨error, failed⟩ := mapSegment_refused describes.loading handled loads
      rw [failed] at succeeds
      cases succeeds
  · rw [mapSegment_panics describes.loading handled] at succeeds
    cases succeeds

theorem segmentStops_of_not_loads (refused : ¬ aspace.room.Loads elf.input segment) :
    ∃ left, SegmentStops spec elf.input aspace segment left := by
  by_cases fits : aspace.room.Fits segment
  · by_cases inFile : segment.offset + segment.filesz ≤ elf.input.length
    · refine ⟨_, .noPage fits inFile ?_⟩
      by_contra allTaken
      push Not at allTaken
      exact refused ⟨fits, inFile, allTaken⟩
    · exact ⟨_, .noData fits (Nat.lt_of_not_le inFile)⟩
  · exact ⟨_, .noRoom fits⟩

theorem mapSegment_of_segmentStops (describes : spec.Describes crates.axmm)
    (handled : aspace.room.Handles segment)
    (stops : SegmentStops spec elf.input aspace segment left) :
    ∃ error, (mapSegment crates elf segment).runOn aspace = (.error (.err error), left) := by
  have allocated := describes.alloc aspace _ _ segment.flags segment.start_mod segment.alignSize_mod
  rw [mapSegment_runOn, if_pos ⟨handled.congruent, handled.sizeFits⟩]
  cases stops with
  | noRoom refused =>
      obtain ⟨error, failed⟩ := describes.allocRefused aspace _ _ segment.flags segment.start_mod
          segment.alignSize_mod refused
      rw [failed]
      exact ⟨error, rfl⟩
  | noData fits outside =>
      rw [allocated fits]
      simp only [if_pos (handled.endFits fits), if_neg (Nat.not_le_of_lt outside)]
      exact ⟨_, rfl⟩
  | noPage fits inFile unmapped =>
      rw [← data_length inFile, ← segment.room_mapped] at unmapped
      obtain ⟨error, failed⟩ :=
        describes.writeFault (segment.mapped aspace) segment.vaddr (segment.data elf.input) unmapped
      rw [allocated fits]
      simp only [if_pos (handled.endFits fits), if_pos inFile]
      rw [← Segment.mapped, failed]
      exact ⟨error, rfl⟩

theorem mapSegments_fails_iff (describes : spec.Describes crates.axmm) {segments : List Segment} :
    (∃ error, (mapSegments crates elf segments).runOn aspace = (.error (.err error), left)) ↔
      SegmentsStop spec elf.input aspace segments left := by
  induction segments generalizing aspace with
  | nil =>
      constructor
      · rintro ⟨error, failed⟩
        cases (Prod.mk.inj failed).1
      · intro stops
        cases stops
  | cons segment rest ih =>
      rw [mapSegments, AspaceM.runOn_bind_fails_iff]
      constructor
      · rintro (⟨error, failed⟩ | ⟨_, between, ran, restFails⟩)
        · by_cases handled : aspace.room.Handles segment
          · by_cases loads : aspace.room.Loads elf.input segment
            · rw [mapSegment_eq_loaded describes handled loads] at failed
              cases (Prod.mk.inj failed).1
            · obtain ⟨stopped, stops⟩ := @segmentStops_of_not_loads spec _ _ _ loads
              obtain ⟨other, stopping⟩ := mapSegment_of_segmentStops describes handled stops
              rw [stopping] at failed
              obtain ⟨-, rfl⟩ := Prod.mk.inj failed
              exact .here handled stops
          · have panicked := @mapSegment_panics crates elf aspace describes.loading segment handled
            rw [failed] at panicked
            cases panicked
        · obtain ⟨handled, loads⟩ := handles_and_loads_of_mapSegment describes ran
          rw [mapSegment_eq_loaded describes handled loads] at ran
          obtain ⟨-, rfl⟩ := Prod.mk.inj ran
          exact .later handled loads (ih.mp restFails)
      · intro stops
        cases stops with
        | here handled stops =>
            exact .inl (mapSegment_of_segmentStops describes handled stops)
        | later handled loads stops =>
            exact .inr ⟨(), _, mapSegment_eq_loaded describes handled loads, ih.mpr stops⟩

theorem mapSegments_eq_loadedAll (describes : spec.Describes crates.axmm) {segments : List Segment}
    (handled : aspace.room.HandlesAll elf.input segments)
    (loads : aspace.room.LoadsAll elf.input segments) :
    (mapSegments crates elf segments).runOn aspace =
      (.ok (), loadedAll elf.input aspace segments) := by
  induction segments generalizing aspace with
  | nil => rfl
  | cons segment rest ih =>
      have restHandled := handled.2 loads.1
      have restLoads := loads.2
      rw [← segment.room_loaded elf.input aspace] at restHandled restLoads
      simp only [mapSegments, AspaceM.runOn_bind, mapSegment_eq_loaded describes handled.1 loads.1,
        ih restHandled restLoads]
      rw [loadedAll, loadedAll, List.foldl_cons]

end Segments

/-! ## The image -/

structure Loadable (crates : LoaderCrates) (elf : ElfFile) (aspace : AddrSpace)
    (parser : ElfParser) : Prop where
  parsed : crates.elfParser elf crates.config.userInterpBase aspace.base = some parser
  handled : aspace.room.HandlesAll elf.input parser.phLoad
  loads : aspace.room.LoadsAll elf.input parser.phLoad

inductive ImageStops (crates : LoaderCrates) (spec : AxmmSpec)
    (elf : ElfFile) (args envs : List Str) (aspace : AddrSpace) :
    AddrSpace → Prop
  | header (unparsed : crates.elfParser elf crates.config.userInterpBase aspace.base = none) :
      ImageStops crates spec elf args envs aspace aspace
  | segments {parser : ElfParser} {left : AddrSpace}
      (parsed : crates.elfParser elf crates.config.userInterpBase aspace.base = some parser)
      (stops : SegmentsStop spec elf.input aspace parser.phLoad left) :
      ImageStops crates spec elf args envs aspace left
  | stack {parser : ElfParser} {loaded : AddrSpace} (loadable : Loadable crates elf aspace parser)
      (isLoaded : loaded = loadedAll elf.input aspace parser.phLoad)
      (refused : ¬ loaded.room.Accepts crates.config.userStackBase crates.config.userStackSize) :
      ImageStops crates spec elf args envs aspace loaded
  | heap {parser : ElfParser} {loaded : AddrSpace} (loadable : Loadable crates elf aspace parser)
      (isLoaded : loaded = loadedAll elf.input aspace parser.phLoad)
      (accepts : loaded.room.Accepts crates.config.userStackBase crates.config.userStackSize)
      (refused :
        ¬ (withStack crates loaded).room.Accepts crates.config.userHeapBase
          crates.config.userHeapSize) :
      ImageStops crates spec elf args envs aspace (withStack crates loaded)
  | data {parser : ElfParser} {loaded : AddrSpace} {data : List UInt8}
      (loadable : Loadable crates elf aspace parser)
      (isLoaded : loaded = loadedAll elf.input aspace parser.phLoad)
      (hasRoom : HasRoom crates loaded)
      (isData : data = stackData crates args envs parser.auxv)
      (notLonger : data.length ≤ crates.config.userStackTop)
      (unwritable : ¬ Writable crates.config (withStackAndHeap crates loaded).room data) :
      ImageStops crates spec elf args envs aspace
        ((withStackAndHeap crates loaded).overlay (crates.config.userStackTop - data.length)
          (data.take
            (spec.written (withStackAndHeap crates loaded)
              (crates.config.userStackTop - data.length) data)))

section Image

variable {crates : LoaderCrates} {spec : AxmmSpec} {elf : ElfFile}
  {aspace left : AddrSpace} {parser : ElfParser} {args envs : List Str}

theorem Loadable.mapElf (loadable : Loadable crates elf aspace parser)
    (describes : spec.Describes crates.axmm) :
    (mapElf crates elf).runOn aspace =
      (.ok (parser.entry, parser.auxv), loadedAll elf.input aspace parser.phLoad) := by
  rw [mapElf_parsed loadable.parsed,
    mapSegments_eq_loadedAll describes loadable.handled loadable.loads]
  rfl

theorem loadable_of_mapElf (describes : spec.Describes crates.axmm) {entry : Nat}
    {auxv : List (Nat × Nat)} {loaded : AddrSpace}
    (ran : (mapElf crates elf).runOn aspace = (.ok (entry, auxv), loaded)) :
    ∃ parser, Loadable crates elf aspace parser ∧ parser.entry = entry ∧ parser.auxv = auxv ∧
      loaded = loadedAll elf.input aspace parser.phLoad := by
  obtain ⟨parser, parsed, -⟩ := Task.elfParser_of_mapElf ran
  obtain ⟨handled, loads⟩ := (mapElf_ok_iff describes.loading parsed).mp ⟨_, congrArg Prod.fst ran⟩
  have loadable : Loadable crates elf aspace parser := ⟨parsed, handled, loads⟩
  rw [loadable.mapElf describes] at ran
  obtain ⟨isValue, isLoaded⟩ := Prod.mk.inj ran
  obtain ⟨isEntry, isAuxv⟩ := Prod.mk.inj (Except.ok.inj isValue)
  exact ⟨parser, loadable, isEntry, isAuxv, isLoaded.symm⟩

theorem mapElf_fails_iff (describes : spec.Describes crates.axmm) :
    (∃ error, (mapElf crates elf).runOn aspace = (.error (.err error), left)) ↔
      (crates.elfParser elf crates.config.userInterpBase aspace.base = none ∧ left = aspace) ∨
      ∃ parser,
        crates.elfParser elf crates.config.userInterpBase aspace.base = some parser ∧
          SegmentsStop spec elf.input aspace parser.phLoad left := by
  cases parsed : crates.elfParser elf crates.config.userInterpBase aspace.base with
  | none =>
      have asked : (get : AspaceM AxError AddrSpace).runOn aspace = (.ok aspace, aspace) := rfl
      simp [mapElf, AspaceM.runOn_bind, asked, parsed, AspaceM.runOn_throw, eq_comm]
  | some parser =>
      simp only [mapElf_parsed parsed, ← mapSegments_fails_iff describes, Option.some.injEq,
        exists_eq_left', reduceCtorEq, false_and, false_or]
      rcases (mapSegments crates elf parser.phLoad).runOn aspace with ⟨fault | _, after⟩ <;>
        simp [Except.map]

section Placed

variable (loadable : Loadable crates elf aspace parser)
  (describes : spec.Describes crates.axmm) (whole : crates.config.WholePages)
  {loaded : AddrSpace}
  (isLoaded : loaded = loadedAll elf.input aspace parser.phLoad)

include loadable describes whole isLoaded

theorem loadImage_of_noStack
    (refused : ¬ loaded.room.Accepts crates.config.userStackBase crates.config.userStackSize) :
    ∃ error, (loadImage crates elf args envs).runOn aspace = (.error (.err error), loaded) := by
  have ran := loadable.mapElf describes
  rw [← isLoaded] at ran
  obtain ⟨error, failed⟩ :=
    describes.allocRefused loaded _ _ .userData whole.stackBase whole.stackSize refused
  rw [loadImage_runOn ran, failed]
  exact ⟨error, rfl⟩

theorem loadImage_of_noHeap
    (accepts : loaded.room.Accepts crates.config.userStackBase crates.config.userStackSize)
    (refused :
      ¬ (withStack crates loaded).room.Accepts crates.config.userHeapBase
        crates.config.userHeapSize) :
    ∃ error,
      (loadImage crates elf args envs).runOn aspace =
        (.error (.err error), withStack crates loaded) := by
  have ran := loadable.mapElf describes
  rw [← isLoaded] at ran
  obtain ⟨error, failed⟩ := describes.allocRefused (withStack crates loaded) _ _ .userData
      whole.heapBase whole.heapSize refused
  have stacked := describes.alloc loaded _ _ .userData whole.stackBase whole.stackSize accepts
  rw [← withStack] at stacked
  simp only [loadImage_runOn ran, stacked, failed]
  exact ⟨error, rfl⟩

variable (hasRoom : HasRoom crates loaded) {data : List UInt8}
  (isData : data = stackData crates args envs parser.auxv)

include hasRoom isData

theorem loadImage_of_hasRoom :
    (loadImage crates elf args envs).runOn aspace =
      if crates.config.userStackTop < data.length then
        (.error .panicked, withStackAndHeap crates loaded)
      else
        match
          crates.axmm.write (withStackAndHeap crates loaded)
            (crates.config.userStackTop - data.length) data
        with
        | (.error error, after) => (.error (.err error), after)
        | (.ok (), after) =>
            (.ok (parser.entry, crates.config.userStackTop - data.length), after) := by
  have ran := loadable.mapElf describes
  rw [← isLoaded] at ran
  have stacked := describes.alloc loaded _ _ .userData whole.stackBase whole.stackSize hasRoom.stack
  have heaped := describes.alloc (withStack crates loaded) _ _ .userData whole.heapBase
      whole.heapSize hasRoom.heap
  rw [← withStack] at stacked
  rw [← withStackAndHeap] at heaped
  rcases written :
      crates.axmm.write (withStackAndHeap crates loaded)
        (crates.config.userStackTop - data.length) data
    with ⟨_ | _, after⟩ <;>
    simp only [loadImage_runOn ran, stacked, heaped, ← isData, written]

theorem loadImage_of_writable (nonempty : data ≠ [])
    (writable : Writable crates.config (withStackAndHeap crates loaded).room data) :
    (loadImage crates elf args envs).runOn aspace =
      (.ok (parser.entry, crates.config.userStackTop - data.length),
        (withStackAndHeap crates loaded).overlay
          (crates.config.userStackTop - data.length) data) := by
  have notLonger := writable.notLonger
  have isLong := List.length_pos_iff.mpr nonempty
  have inMemory (index : Nat) (inside : index < data.length) :
      (withStackAndHeap crates loaded).IsMapped
        ((crates.config.userStackTop - data.length + index) / pageSize4k) := by
    apply writable.onPages
    simp only [OnTop]
    omega
  have stored := describes.write (withStackAndHeap crates loaded)
      (crates.config.userStackTop - data.length) data (inMemory 0 isLong)
      inMemory
  rw [loadImage_of_hasRoom loadable describes whole isLoaded hasRoom isData,
    if_neg (Nat.not_lt.mpr notLonger), stored]

theorem loadImage_of_unwritable (notLonger : data.length ≤ crates.config.userStackTop)
    (unwritable : ¬ Writable crates.config (withStackAndHeap crates loaded).room data) :
    ∃ error,
      (loadImage crates elf args envs).runOn aspace =
        (.error (.err error),
          (withStackAndHeap crates loaded).overlay (crates.config.userStackTop - data.length)
            (data.take
              (spec.written (withStackAndHeap crates loaded)
                (crates.config.userStackTop - data.length) data))) := by
  have unmapped :
      ∃ index < data.length,
        ¬ (withStackAndHeap crates loaded).IsMapped
          ((crates.config.userStackTop - data.length + index) / pageSize4k) := by
    by_contra allMapped
    push Not at allMapped
    refine unwritable ⟨notLonger, ?_⟩
    rintro addr ⟨lower, upper⟩
    have mapped := allMapped (addr - (crates.config.userStackTop - data.length)) (by omega)
    rwa [Nat.add_sub_cancel' lower] at mapped
  obtain ⟨error, failed⟩ := describes.writeFault (withStackAndHeap crates loaded)
      (crates.config.userStackTop - data.length) data unmapped
  rw [loadImage_of_hasRoom loadable describes whole isLoaded hasRoom isData,
    if_neg (Nat.not_lt.mpr notLonger), failed]
  exact ⟨error, rfl⟩

end Placed

theorem loadImage_of_imageStops (describes : spec.Describes crates.axmm)
    (whole : crates.config.WholePages)
    (stops : ImageStops crates spec elf args envs aspace left) :
    ∃ error, (loadImage crates elf args envs).runOn aspace = (.error (.err error), left) := by
  cases stops with
  | header unparsed =>
      exact AspaceM.runOn_bind_fails_iff.mpr
          (.inl ((mapElf_fails_iff describes).mpr (.inl ⟨unparsed, rfl⟩)))
  | segments parsed stopped =>
      exact AspaceM.runOn_bind_fails_iff.mpr
          (.inl ((mapElf_fails_iff describes).mpr (.inr ⟨_, parsed, stopped⟩)))
  | stack loadable isLoaded refused =>
      exact loadImage_of_noStack loadable describes whole isLoaded refused
  | heap loadable isLoaded accepts refused =>
      exact loadImage_of_noHeap loadable describes whole isLoaded accepts refused
  | data loadable isLoaded hasRoom isData notLonger unwritable =>
      exact loadImage_of_unwritable loadable describes whole isLoaded hasRoom
          isData notLonger unwritable

theorem loadImage_fails_iff (describes : spec.Describes crates.axmm)
    (whole : crates.config.WholePages)
    (nonempty : ∀ auxv, stackData crates args envs auxv ≠ []) :
    (∃ error, (loadImage crates elf args envs).runOn aspace = (.error (.err error), left)) ↔
      ImageStops crates spec elf args envs aspace left := by
  refine ⟨?_, loadImage_of_imageStops describes whole⟩
  rintro ⟨error, failed⟩
  have sameLeft {stopped : AddrSpace}
      (stops : ImageStops crates spec elf args envs aspace stopped) :
      ImageStops crates spec elf args envs aspace left := by
    obtain ⟨other, stopping⟩ := loadImage_of_imageStops describes whole stops
    rw [stopping] at failed
    rw [← (Prod.mk.inj failed).2]
    exact stops
  rcases AspaceM.runOn_bind_fails_iff.mp ⟨error, failed⟩ with
    segmentsFail | ⟨_, loaded, segments, -⟩
  · rcases (mapElf_fails_iff describes).mp segmentsFail with
      ⟨unparsed, rfl⟩ | ⟨parser, parsed, stops⟩
    · exact .header unparsed
    · exact .segments parsed stops
  obtain ⟨parser, loadable, -, -, isLoaded⟩ := loadable_of_mapElf describes segments
  by_cases accepts : loaded.room.Accepts crates.config.userStackBase crates.config.userStackSize
  · by_cases heapAccepts :
        (withStack crates loaded).room.Accepts crates.config.userHeapBase crates.config.userHeapSize
    · have hasRoom : HasRoom crates loaded := ⟨accepts, heapAccepts⟩
      by_cases notLonger :
          (stackData crates args envs parser.auxv).length ≤ crates.config.userStackTop
      · by_cases writable :
            Writable crates.config (withStackAndHeap crates loaded).room
              (stackData crates args envs parser.auxv)
        · rw [loadImage_of_writable loadable describes whole isLoaded hasRoom
            rfl (nonempty _) writable] at failed
          cases (Prod.mk.inj failed).1
        · exact sameLeft (.data loadable isLoaded hasRoom rfl notLonger writable)
      · rw [loadImage_of_hasRoom loadable describes whole isLoaded hasRoom
          rfl, if_pos (Nat.lt_of_not_le notLonger)] at failed
        cases (Prod.mk.inj failed).1
    · exact sameLeft (.heap loadable isLoaded accepts heapAccepts)
  · exact sameLeft (.stack loadable isLoaded accepts)

end Image

end Vegar.Mm

namespace Vegar.Task

open Vegar.Lib Vegar.Mm

/-! ## The trampoline -/

structure ExactCrates (crates : LoaderCrates) (spec : AxmmSpec) : Prop where
  describes : spec.Describes crates.axmm
  whole : crates.config.WholePages
  trampoline : crates.config.signalTrampoline % pageSize4k = 0
  trampolinePaddr : crates.trampolinePaddr % pageSize4k = 0
  nonempty : ∀ args envs auxv, stackData crates args envs auxv ≠ []

def TrampolineFits (crates : LoaderCrates) (before : AddrSpace) : Prop :=
  Room.Accepts ⟨before.base, before.size, ∅⟩ crates.config.signalTrampoline pageSize4k

def trampolineSpace (crates : LoaderCrates) (spec : AxmmSpec) (before : AddrSpace) : AddrSpace :=
  before.emptied.withRange crates.config.signalTrampoline pageSize4k
    (some ⟨.userText, spec.physical crates.trampolinePaddr⟩)

theorem trampolineSpace_trampolineSpace
    (crates : LoaderCrates) (spec : AxmmSpec) (before : AddrSpace) :
    trampolineSpace crates spec (trampolineSpace crates spec before) =
      trampolineSpace crates spec before :=
  rfl

namespace ExactCrates

variable {crates : LoaderCrates} {spec : AxmmSpec} {before : AddrSpace}

theorem execCrates (exact : ExactCrates crates spec) : ExecCrates crates where
  unmaps := exact.describes.unmaps
  linear := exact.describes.isLinear
  loading := exact.describes.loading
  whole := exact.whole
  trampoline := exact.trampoline
  trampolinePaddr := exact.trampolinePaddr
  nonempty := exact.nonempty

theorem mapTrampoline_of_fits (exact : ExactCrates crates spec)
    (fits : TrampolineFits crates before) :
    (mapTrampoline crates).runOn before.emptied = (.ok (), trampolineSpace crates spec before) := by
  rw [TrampolineFits, ← room_emptied] at fits
  rw [mapTrampoline, AspaceM.runOn_ofAxmm,
    exact.describes.linear _ _ _ _ exact.trampoline exact.trampolinePaddr fits]
  rfl

theorem mapTrampoline_of_refused (exact : ExactCrates crates spec)
    (refused : ¬ TrampolineFits crates before) :
    ∃ error,
      (mapTrampoline crates).runOn before.emptied = (.error (.err error), before.emptied) := by
  rw [TrampolineFits, ← room_emptied] at refused
  obtain ⟨error, failed⟩ := exact.describes.linearRefused before.emptied _ _ .userText
      exact.trampoline exact.trampolinePaddr refused
  rw [mapTrampoline, AspaceM.runOn_ofAxmm, failed]
  exact ⟨error, rfl⟩

theorem room_trampolineSpace (crates : LoaderCrates) (spec : AxmmSpec) (before : AddrSpace) :
    (trampolineSpace crates spec before).room =
      ExecPlan.trampolineRoom crates before := by
  rw [trampolineSpace, room_withRange_take, room_emptied]
  rfl

end ExactCrates

end Vegar.Task

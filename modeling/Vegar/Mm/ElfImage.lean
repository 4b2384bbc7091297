import Vegar.Mm.LoaderChain
import Vegar.Mm.Munmap

/-!
# The image of a loaded program

What `map_elf` makes of the segments of a file, whose headers may hold any
numbers.  A room records the range of an address space and the pages that are
taken.  The data of a segment may be longer than its pages, so that two
segments may describe one byte differently.
-/

namespace Vegar.Mm

open Vegar.Lib

namespace Segment

/-- The first address `map_elf` asks `map_alloc` for. -/
def start (segment : Segment) : Nat := alignDown4k segment.vaddr

/-- `seg_align_size`. -/
def alignSize (segment : Segment) : Nat :=
  alignDown4k (segment.memsz + segment.vaddr % pageSize4k + (pageSize4k - 1))

def data (input : List UInt8) (segment : Segment) : List UInt8 :=
  (input.drop segment.offset).take segment.filesz

/-- The byte the segment describes at an address: the data of the file, then
zeros up to `memsz`. -/
def byteAt (input : List UInt8) (segment : Segment) (addr : Nat) :
    Option UInt8 :=
  if addr < segment.vaddr then none
  else if addr < segment.vaddr + segment.filesz then
    input[segment.offset + (addr - segment.vaddr)]?
  else if addr < segment.vaddr + segment.memsz then some 0
  else none

def pages (segment : Segment) : Set Nat :=
  { number | Touches segment.start segment.alignSize number }

theorem start_mod (segment : Segment) : segment.start % pageSize4k = 0 := by
  simp only [start, alignDown4k, pageSize4k]
  omega

theorem alignSize_mod (segment : Segment) : segment.alignSize % pageSize4k = 0 := by
  simp only [alignSize, alignDown4k, pageSize4k]
  omega

theorem mem_pages {segment : Segment} {addr : Nat} (lower : segment.vaddr ≤ addr)
    (upper : addr < segment.vaddr + segment.memsz) :
    addr / pageSize4k ∈ segment.pages := by
  change _ ∧ _
  simp only [start, alignSize, alignDown4k, pageSize4k]
  omega

theorem vaddr_mem_pages {segment : Segment} (nonempty : 0 < segment.alignSize) :
    segment.vaddr / pageSize4k ∈ segment.pages := by
  change _ ∧ _
  simp only [start, alignDown4k, pageSize4k]
  omega

end Segment

def Agree (input : List UInt8) (segments : List Segment) : Prop :=
  ∀ first ∈ segments, ∀ second ∈ segments, ∀ addr one other, first.byteAt input addr = some one →
    second.byteAt input addr = some other → one = other

/-! ## Rooms -/

@[ext]
structure Room where
  base : Nat
  size : Nat
  taken : Set Nat

def AddrSpace.room (aspace : AddrSpace) : Room where
  base := aspace.base
  size := aspace.size
  taken := { number | aspace.IsMapped number }

namespace Room

structure Accepts (room : Room) (start size : Nat) : Prop where
  nonempty : 0 < size
  lower : room.base ≤ start
  upper : start + size ≤ room.base + room.size
  free : ∀ number, Touches start size number → number ∉ room.taken

def Fits (room : Room) (segment : Segment) : Prop := room.Accepts segment.start segment.alignSize

def add (room : Room) (segment : Segment) : Room :=
  { room with taken := room.taken ∪ segment.pages }

structure Loads (input : List UInt8) (room : Room) (segment : Segment) : Prop where
  fits : room.Fits segment
  inFile : segment.offset + segment.filesz ≤ input.length
  onPages :
    ∀ index < segment.filesz, (segment.vaddr + index) / pageSize4k ∈ (room.add segment).taken

structure Handles (room : Room) (segment : Segment) : Prop where
  congruent : segment.vaddr % pageSize4k = segment.offset % pageSize4k
  sizeFits : segment.memsz + segment.vaddr % pageSize4k + pageSize4k ≤ usizeMax
  endFits : room.Fits segment → segment.offset + segment.filesz ≤ usizeMax

def LoadsAll (input : List UInt8) : Room → List Segment → Prop
  | _, [] => True
  | room, segment :: rest =>
      room.Loads input segment ∧ LoadsAll input (room.add segment) rest

def HandlesAll (input : List UInt8) : Room → List Segment → Prop
  | _, [] => True
  | room, segment :: rest =>
      room.Handles segment ∧ (room.Loads input segment → HandlesAll input (room.add segment) rest)

end Room

/-! ## What `axmm` provides -/

/-- `map_alloc` maps zeroed pages in a range that is accepted and fails on
others, and `write` fails on addresses that are not mapped. -/
structure Axmm.Loading (axmm : Axmm) : Prop where
  maps :
    ∀ aspace start size flags, start % pageSize4k = 0 → size % pageSize4k = 0 →
      aspace.room.Accepts start size →
        axmm.mapAlloc aspace start size flags true =
          (.ok (), aspace.withRange start size (some (freshPage flags)))
  refuses :
    ∀ aspace start size flags, start % pageSize4k = 0 → size % pageSize4k = 0 →
      ¬ aspace.room.Accepts start size →
        ∃ error after, axmm.mapAlloc aspace start size flags true = (.error error, after)
  writes :
    ∀ aspace start data, aspace.IsMapped (start / pageSize4k) →
      (∀ index < data.length, aspace.IsMapped ((start + index) / pageSize4k)) →
        ∃ after, axmm.write aspace start data = (.ok (), after) ∧
          after.base = aspace.base ∧ after.size = aspace.size ∧
          ∀ addr, after.byteAt addr =
            if start ≤ addr ∧ addr < start + data.length then
              data[addr - start]?
            else aspace.byteAt addr
  faults :
    ∀ aspace start data,
      (∃ index < data.length, ¬ aspace.IsMapped ((start + index) / pageSize4k)) →
        ∃ error after, axmm.write aspace start data = (.error error, after)

/-! ## One segment -/

section Bytes

variable {aspace : AddrSpace}

theorem AddrSpace.isSome_byteAt (addr : Nat) :
    (aspace.byteAt addr).isSome = true ↔ aspace.IsMapped (addr / pageSize4k) := by
  rw [AddrSpace.byteAt, Option.isSome_map]
  rfl

theorem AddrSpace.byteAt_withRange (start size : Nat) (flags : MappingFlags) (addr : Nat) :
    (aspace.withRange start size (some (freshPage flags))).byteAt addr =
      if Touches start size (addr / pageSize4k) then some 0
      else aspace.byteAt addr := by
  by_cases touches : Touches start size (addr / pageSize4k)
  · simp only [AddrSpace.byteAt, AddrSpace.withRange, if_pos touches]
    rfl
  · simp only [AddrSpace.byteAt, AddrSpace.withRange, if_neg touches]

theorem AddrSpace.room_withRange (segment : Segment) (flags : MappingFlags) :
    (aspace.withRange segment.start segment.alignSize (some (freshPage flags))).room =
      aspace.room.add segment := by
  apply Room.ext
  · rfl
  · rfl
  · apply Set.ext
    intro number
    have mapped :=
      @isMapped_withRange aspace segment.start segment.alignSize number (some (freshPage flags))
    refine mapped.trans ?_
    change _ ↔ aspace.IsMapped number ∨ Touches segment.start segment.alignSize number
    by_cases touches : Touches segment.start segment.alignSize number
    · rw [if_pos touches]
      exact iff_of_true rfl (Or.inr touches)
    · rw [if_neg touches, or_iff_left touches]

theorem AddrSpace.room_eq {after : AddrSpace} (sameBase : after.base = aspace.base)
    (sameSize : after.size = aspace.size)
    (sameMapped : ∀ addr, (after.byteAt addr).isSome = (aspace.byteAt addr).isSome) :
    after.room = aspace.room := by
  apply Room.ext
  · exact sameBase
  · exact sameSize
  · apply Set.ext
    intro number
    have atStart : number * pageSize4k / pageSize4k = number := Nat.mul_div_cancel _ (by decide)
    have afterMapped := @AddrSpace.isSome_byteAt after (number * pageSize4k)
    have wasMapped := @AddrSpace.isSome_byteAt aspace (number * pageSize4k)
    rw [atStart] at afterMapped wasMapped
    change after.IsMapped number ↔ aspace.IsMapped number
    rw [← afterMapped, ← wasMapped, sameMapped]

end Bytes

section Load

variable {crates : LoaderCrates} {elf : ElfFile} {aspace : AddrSpace}

theorem addOrPanic_runOn (left right : Nat) :
    (addOrPanic left right).runOn aspace =
      if left + right ≤ usizeMax then (.ok (left + right), aspace)
      else (.error .panicked, aspace) := by
  unfold addOrPanic usizeAdd
  by_cases fits : left + right ≤ usizeMax
  · rw [if_pos fits, if_pos fits]
    rfl
  · rw [if_neg fits, if_neg fits]
    rfl

theorem subslice_data (input : List UInt8) (segment : Segment) :
    subslice input segment.offset (segment.offset + segment.filesz) =
      if segment.offset + segment.filesz ≤ input.length then
        some (segment.data input)
      else none := by
  simp only [subslice, Segment.data, Nat.le_add_right, true_and, Nat.add_sub_cancel_left]

variable {input : List UInt8} {segment : Segment}

theorem data_length (inFile : segment.offset + segment.filesz ≤ input.length) :
    (segment.data input).length = segment.filesz := by
  rw [Segment.data, List.length_take, List.length_drop]
  omega

theorem mapSegment_runOn (segment : Segment) :
    (mapSegment crates elf segment).runOn aspace =
      if segment.vaddr % pageSize4k = segment.offset % pageSize4k ∧
          segment.memsz + segment.vaddr % pageSize4k + pageSize4k ≤ usizeMax then
        match crates.axmm.mapAlloc aspace segment.start segment.alignSize segment.flags true with
        | (.error error, after) => (.error (.err error), after)
        | (.ok (), mapped) =>
            if segment.offset + segment.filesz ≤ usizeMax then
              if segment.offset + segment.filesz ≤ elf.input.length then
                match crates.axmm.write mapped segment.vaddr (segment.data elf.input) with
                | (.error error, after) => (.error (.err error), after)
                | (.ok (), after) => (.ok (), after)
              else (.error (.err .InvalidData), mapped)
            else (.error .panicked, mapped)
      else (.error .panicked, aspace) := by
  have raised :
      segment.memsz + segment.vaddr % pageSize4k + pageSize4k - 1 =
        segment.memsz + segment.vaddr % pageSize4k + (pageSize4k - 1) :=
    Nat.add_sub_assoc (by decide) _
  dsimp only [mapSegment]
  by_cases congruent : segment.vaddr % pageSize4k = segment.offset % pageSize4k
  · rw [if_neg (not_not.mpr congruent)]
    by_cases sizeFits : segment.memsz + segment.vaddr % pageSize4k + pageSize4k ≤ usizeMax
    · have paddedFits :
          segment.memsz + segment.vaddr % pageSize4k ≤ usizeMax := by
        omega
      rw [if_pos ⟨congruent, sizeFits⟩]
      simp only [AspaceM.runOn_bind, addOrPanic_runOn, paddedFits, sizeFits,
        if_true, raised, AspaceM.runOn_ofAxmm]
      cases allocated :
          crates.axmm.mapAlloc aspace segment.start segment.alignSize segment.flags true with
      | mk outcome mapped =>
      rw [Segment.start, Segment.alignSize] at allocated
      simp only [allocated]
      cases outcome with
      | error error => rfl
      | ok done =>
      by_cases endFits : segment.offset + segment.filesz ≤ usizeMax
      · simp only [if_pos endFits, subslice_data]
        by_cases inFile : segment.offset + segment.filesz ≤ elf.input.length
        · simp only [if_pos inFile, AspaceM.runOn_ofAxmm]
          rcases crates.axmm.write mapped segment.vaddr
            (segment.data elf.input) with ⟨_ | _, after⟩ <;> rfl
        · simp only [if_neg inFile]
          rfl
      · simp only [if_neg endFits]
    · rw [if_neg (fun both => sizeFits both.2)]
      simp only [AspaceM.runOn_bind, addOrPanic_runOn]
      by_cases paddedFits : segment.memsz + segment.vaddr % pageSize4k ≤ usizeMax
      · simp only [if_pos paddedFits, if_neg sizeFits]
      · simp only [if_neg paddedFits]
  · rw [if_pos congruent, if_neg (fun both => congruent both.1)]
    rfl

theorem mapSegment_panics (loading : crates.axmm.Loading) {segment : Segment}
    (unhandled : ¬ aspace.room.Handles segment) :
    ((mapSegment crates elf segment).runOn aspace).1 = .error .panicked := by
  rw [mapSegment_runOn]
  split
  · next checked =>
      by_cases fits : aspace.room.Fits segment
      · have tooLong : ¬ segment.offset + segment.filesz ≤ usizeMax := by
          intro endFits
          exact unhandled ⟨checked.1, checked.2, fun _ => endFits⟩
        rw [loading.maps _ _ _ _ segment.start_mod segment.alignSize_mod fits]
        simp only [if_neg tooLong]
      · have handled : aspace.room.Handles segment :=
          ⟨checked.1, checked.2, fun fit => absurd fit fits⟩
        exact absurd handled unhandled
  · rfl

theorem mapSegment_refused (loading : crates.axmm.Loading) {segment : Segment}
    (handled : aspace.room.Handles segment)
    (refused : ¬ aspace.room.Loads elf.input segment) :
    ∃ error, ((mapSegment crates elf segment).runOn aspace).1 = .error (.err error) := by
  rw [mapSegment_runOn, if_pos ⟨handled.congruent, handled.sizeFits⟩]
  by_cases fits : aspace.room.Fits segment
  · rw [loading.maps _ _ _ _ segment.start_mod segment.alignSize_mod fits]
    simp only [if_pos (handled.endFits fits)]
    by_cases inFile : segment.offset + segment.filesz ≤ elf.input.length
    · rw [if_pos inFile]
      have unmapped :
          ∃ index < (segment.data elf.input).length,
            ¬ (aspace.withRange segment.start segment.alignSize
              (some (freshPage segment.flags))).IsMapped
                ((segment.vaddr + index) / pageSize4k) := by
        by_contra allMapped
        push Not at allMapped
        rw [data_length inFile] at allMapped
        refine refused ⟨fits, inFile, ?_⟩
        rw [← AddrSpace.room_withRange segment segment.flags]
        exact allMapped
      obtain ⟨error, after, fault⟩ := loading.faults _ _ _ unmapped
      rw [fault]
      exact ⟨error, rfl⟩
    · rw [if_neg inFile]
      exact ⟨.InvalidData, rfl⟩
  · obtain ⟨error, after, failed⟩ :=
      loading.refuses aspace _ _ segment.flags segment.start_mod segment.alignSize_mod fits
    rw [failed]
    exact ⟨error, rfl⟩

def Overlays (input : List UInt8) (segment : Segment) (aspace after : AddrSpace) : Prop :=
  ∀ addr, after.byteAt addr =
    if segment.vaddr ≤ addr ∧ addr < segment.vaddr + segment.filesz then
      input[segment.offset + (addr - segment.vaddr)]?
    else if Touches segment.start segment.alignSize (addr / pageSize4k) then
      some 0
    else aspace.byteAt addr

theorem mapSegment_loads (loading : crates.axmm.Loading) (handled : aspace.room.Handles segment)
    (loads : aspace.room.Loads elf.input segment) :
    ∃ after, (mapSegment crates elf segment).runOn aspace = (.ok (), after) ∧
      after.room = aspace.room.add segment ∧
      Overlays elf.input segment aspace after := by
  have sameLength := data_length loads.inFile
  have mappedRoom := @AddrSpace.room_withRange aspace segment segment.flags
  generalize isMapped :
    aspace.withRange segment.start segment.alignSize
      (some (freshPage segment.flags)) = mapped at mappedRoom
  have onPages (number : Nat) :
      number ∈ (aspace.room.add segment).taken → mapped.IsMapped number := by
    rw [← mappedRoom]
    exact id
  obtain ⟨after, written, sameBase, sameSize, bytes⟩ :=
    loading.writes mapped segment.vaddr (segment.data elf.input)
      (onPages _ (Or.inr (Segment.vaddr_mem_pages loads.fits.nonempty)))
      (by
        rw [sameLength]
        exact fun index inside => onPages _ (loads.onPages index inside))
  rw [sameLength] at bytes
  refine ⟨after, ?_, ?_, ?_⟩
  · rw [mapSegment_runOn, if_pos ⟨handled.congruent, handled.sizeFits⟩,
      loading.maps _ _ _ _ segment.start_mod segment.alignSize_mod loads.fits, isMapped]
    simp only [if_pos (handled.endFits loads.fits), if_pos loads.inFile, written]
  · rw [← mappedRoom]
    apply AddrSpace.room_eq sameBase sameSize
    intro addr
    rw [bytes]
    split
    · next inside =>
        have isThere : (mapped.byteAt addr).isSome = true := by
          have covered := loads.onPages (addr - segment.vaddr) (by omega)
          rw [Nat.add_sub_cancel' inside.1] at covered
          rw [AddrSpace.isSome_byteAt]
          exact onPages _ covered
        have inData : addr - segment.vaddr < (segment.data elf.input).length := by
          omega
        rw [isThere, List.getElem?_eq_getElem inData, Option.isSome_some]
    · rfl
  · intro addr
    rw [bytes, ← isMapped, AddrSpace.byteAt_withRange]
    split
    · next inside =>
        rw [Segment.data, List.getElem?_take_of_lt (by omega), List.getElem?_drop]
    · rfl

/-! ## All segments -/

theorem mapSegments_panics (loading : crates.axmm.Loading) {segments : List Segment}
    (unhandled : ¬ aspace.room.HandlesAll elf.input segments) :
    ((mapSegments crates elf segments).runOn aspace).1 = .error .panicked := by
  induction segments generalizing aspace with
  | nil => exact absurd trivial unhandled
  | cons segment rest ih =>
      simp only [mapSegments, AspaceM.runOn_bind]
      by_cases handled : aspace.room.Handles segment
      · by_cases loads : aspace.room.Loads elf.input segment
        · obtain ⟨after, ran, nextRoom, -⟩ := mapSegment_loads loading handled loads
          rw [ran]
          apply ih
          rw [nextRoom]
          exact fun restHandled => unhandled ⟨handled, fun _ => restHandled⟩
        · exact absurd ⟨handled, fun fit => absurd fit loads⟩ unhandled
      · have panicked := @mapSegment_panics crates elf aspace loading segment handled
        rcases ran : (mapSegment crates elf segment).runOn aspace with ⟨outcome, after⟩
        rw [ran] at panicked
        rw [show outcome = .error .panicked from panicked]

theorem mapSegments_refused (loading : crates.axmm.Loading) {segments : List Segment}
    (handled : aspace.room.HandlesAll elf.input segments)
    (refused : ¬ aspace.room.LoadsAll elf.input segments) :
    ∃ error, ((mapSegments crates elf segments).runOn aspace).1 = .error (.err error) := by
  induction segments generalizing aspace with
  | nil => exact absurd trivial refused
  | cons segment rest ih =>
      simp only [mapSegments, AspaceM.runOn_bind]
      by_cases loads : aspace.room.Loads elf.input segment
      · obtain ⟨after, ran, nextRoom, -⟩ := mapSegment_loads loading handled.1 loads
        rw [ran]
        apply ih
        · rw [nextRoom]
          exact handled.2 loads
        · rw [nextRoom]
          exact fun restLoads => refused ⟨loads, restLoads⟩
      · obtain ⟨error, failed⟩ :=
          @mapSegment_refused crates elf aspace loading segment handled.1 loads
        rcases ran : (mapSegment crates elf segment).runOn aspace with ⟨outcome, after⟩
        rw [ran] at failed
        rw [show outcome = .error (.err error) from failed]
        exact ⟨error, rfl⟩

structure Shows (input : List UInt8) (aspace : AddrSpace) (segment : Segment) : Prop where
  inFile : segment.offset + segment.filesz ≤ input.length
  bytes : ∀ addr byte, segment.byteAt input addr = some byte → aspace.byteAt addr = some byte

theorem Overlays.shows {after : AddrSpace} (overlays : Overlays input segment aspace after)
    (inFile : segment.offset + segment.filesz ≤ input.length) :
    Shows input after segment := by
  refine ⟨inFile, ?_⟩
  intro addr byte described
  rw [overlays addr, ← described, Segment.byteAt]
  by_cases below : addr < segment.vaddr
  · rw [Segment.byteAt, if_pos below] at described
    cases described
  · rw [if_neg below]
    have lower := Nat.le_of_not_lt below
    by_cases inData : addr < segment.vaddr + segment.filesz
    · rw [if_pos ⟨lower, inData⟩, if_pos inData]
    · rw [if_neg (fun both => inData both.2), if_neg inData]
      by_cases inMemory : addr < segment.vaddr + segment.memsz
      · rw [if_pos inMemory]
        exact if_pos (Segment.mem_pages lower inMemory)
      · rw [Segment.byteAt, if_neg below, if_neg inData, if_neg inMemory] at described
        cases described

theorem Segment.byteAt_of_inData {addr : Nat}
    (inData : segment.vaddr ≤ addr ∧ addr < segment.vaddr + segment.filesz) :
    segment.byteAt input addr = input[segment.offset + (addr - segment.vaddr)]? := by
  rw [Segment.byteAt, if_neg (Nat.not_lt.mpr inData.1), if_pos inData.2]

/-- What was shown stays shown where the next segment agrees with it: its
pages were free, and its data does not change a byte. -/
theorem Overlays.keeps {earlier : Segment} {after : AddrSpace}
    (overlays : Overlays input segment aspace after)
    (loads : aspace.room.Loads input segment)
    (agree : Agree input [earlier, segment])
    (shown : Shows input aspace earlier) :
    Shows input after earlier := by
  refine ⟨shown.inFile, ?_⟩
  intro addr byte described
  have there := shown.bytes addr byte described
  rw [overlays addr]
  split
  · next inData =>
      have inInput : segment.offset + (addr - segment.vaddr) < input.length := by
        have inFile := loads.inFile
        omega
      have written :
          segment.byteAt input addr = some input[segment.offset + (addr - segment.vaddr)] := by
        rw [Segment.byteAt_of_inData inData, List.getElem?_eq_getElem inInput]
      have same := agree earlier List.mem_cons_self segment
          (List.mem_cons_of_mem _ List.mem_cons_self) addr _ _ described
          written
      rw [List.getElem?_eq_getElem inInput, same]
  · split
    · next touches =>
        have mapped : aspace.IsMapped (addr / pageSize4k) := by
          rw [← AddrSpace.isSome_byteAt, there, Option.isSome_some]
        exact absurd mapped (loads.fits.free _ touches)
    · exact there

theorem Agree.subset {segments fewer : List Segment}
    (agree : Agree input segments) (included : fewer ⊆ segments) :
    Agree input fewer := by
  intro first firstMember second secondMember
  exact agree first (included firstMember) second (included secondMember)

theorem mapSegments_loads (loading : crates.axmm.Loading) {before segments : List Segment}
    (handled : aspace.room.HandlesAll elf.input segments)
    (loadsAll : aspace.room.LoadsAll elf.input segments) :
    ∃ after, (mapSegments crates elf segments).runOn aspace = (.ok (), after) ∧
      (Agree elf.input (before ++ segments) →
        (∀ segment ∈ before, Shows elf.input aspace segment) →
          ∀ segment ∈ before ++ segments, Shows elf.input after segment) := by
  induction segments generalizing aspace before with
  | nil =>
      refine ⟨aspace, rfl, ?_⟩
      intro _ shown
      rw [List.append_nil]
      exact shown
  | cons segment rest ih =>
      obtain ⟨loads, restLoads⟩ := loadsAll
      obtain ⟨between, ran, nextRoom, overlays⟩ := mapSegment_loads loading handled.1 loads
      have restHandled := handled.2 loads
      rw [← nextRoom] at restHandled restLoads
      obtain ⟨after, restRan, restShown⟩ := @ih between (before ++ [segment]) restHandled restLoads
      refine ⟨after, ?_, ?_⟩
      · simp only [mapSegments, AspaceM.runOn_bind, ran, restRan]
      · intro agree shown
        rw [List.append_assoc, List.singleton_append] at restShown
        apply restShown agree
        intro known member
        rcases List.mem_append.mp member with earlier | isSegment
        · have pair : [known, segment] ⊆ before ++ segment :: rest := by
            simp [earlier]
          exact overlays.keeps loads (agree.subset pair) (shown known earlier)
        · rw [List.mem_singleton.mp isSegment]
          exact overlays.shows loads.inFile

theorem mapElf_unparsed
    (unparsed : crates.elfParser elf crates.config.userInterpBase aspace.base = none) :
    (mapElf crates elf).runOn aspace = (.error (.err .InvalidData), aspace) := by
  have asked : (get : AspaceM AxError AddrSpace).runOn aspace = (.ok aspace, aspace) := rfl
  simp only [mapElf, AspaceM.runOn_bind, asked, unparsed, AspaceM.runOn_throw]

theorem mapElf_parsed {parser : ElfParser}
    (parsed : crates.elfParser elf crates.config.userInterpBase aspace.base = some parser) :
    (mapElf crates elf).runOn aspace =
      (((mapSegments crates elf parser.phLoad).runOn aspace).1.map
          fun _ => (parser.entry, parser.auxv),
        ((mapSegments crates elf parser.phLoad).runOn aspace).2) := by
  have asked : (get : AspaceM AxError AddrSpace).runOn aspace = (.ok aspace, aspace) := rfl
  simp only [mapElf, AspaceM.runOn_bind, asked, parsed, AspaceM.runOn_pure]
  rcases (mapSegments crates elf parser.phLoad).runOn aspace with ⟨_ | _, after⟩ <;> rfl

/-- The segment is in memory as the file has it, with zeros up to `memsz`. -/
structure Faithful (input : List UInt8) (aspace : AddrSpace) (segment : Segment) : Prop where
  fileBytes :
    ∀ index < segment.filesz, ∃ byte,
      input[segment.offset + index]? = some byte ∧ aspace.byteAt (segment.vaddr + index) = some byte
  zeros :
    ∀ index, segment.filesz ≤ index → index < segment.memsz →
      aspace.byteAt (segment.vaddr + index) = some 0

theorem Shows.faithful (shows : Shows input aspace segment) :
    Faithful input aspace segment := by
  have inFile := shows.inFile
  constructor
  · intro index inside
    have inInput : segment.offset + index < input.length := by
      omega
    have described :
        segment.byteAt input (segment.vaddr + index) =
          some input[segment.offset + index] := by
      rw [Segment.byteAt_of_inData ⟨by omega, by omega⟩,
        Nat.add_sub_cancel_left, List.getElem?_eq_getElem inInput]
    exact ⟨_, List.getElem?_eq_getElem inInput, shows.bytes _ _ described⟩
  · intro index beyond inside
    apply shows.bytes
    rw [Segment.byteAt, if_neg (by omega), if_neg (by omega), if_pos (by omega)]

theorem Faithful.byteAt_eq {addr : Nat} {byte : UInt8} (faithful : Faithful input aspace segment)
    (described : segment.byteAt input addr = some byte) :
    aspace.byteAt addr = some byte := by
  unfold Segment.byteAt at described
  split at described
  · cases described
  · next above =>
      have isAddr : segment.vaddr + (addr - segment.vaddr) = addr := by
        omega
      split at described
      · next inData =>
          obtain ⟨stored, inInput, inMemory⟩ := faithful.fileBytes (addr - segment.vaddr) (by omega)
          rw [isAddr, ← inInput, described] at inMemory
          exact inMemory
      · next beyond =>
          split at described
          · next inMemory =>
              have zero := faithful.zeros (addr - segment.vaddr) (by omega) (by omega)
              rw [isAddr, described] at zero
              exact zero
          · cases described

end Load

/-- `map_elf` returns and, if it succeeds, every segment is in memory. -/
structure LoadsFaithfully (crates : LoaderCrates) (elf : ElfFile) (aspace : AddrSpace) : Prop where
  answers :
    (∃ value, ((mapElf crates elf).runOn aspace).1 = .ok value) ∨
      ∃ error, ((mapElf crates elf).runOn aspace).1 = .error (.err error)
  faithful :
    ∀ value after parser, (mapElf crates elf).runOn aspace = (.ok value, after) →
      crates.elfParser elf crates.config.userInterpBase aspace.base = some parser →
        ∀ segment ∈ parser.phLoad, Faithful elf.input after segment

/-- `map_elf` is safe and faithful exactly when every segment it comes to is
handled and, if all can be loaded, no two describe a byte differently. -/
theorem map_elf_faithful_iff (crates : LoaderCrates) (loading : crates.axmm.Loading) (elf : ElfFile)
    (aspace : AddrSpace) :
    LoadsFaithfully crates elf aspace ↔
      ∀ parser, crates.elfParser elf crates.config.userInterpBase aspace.base = some parser →
        aspace.room.HandlesAll elf.input parser.phLoad ∧
          (aspace.room.LoadsAll elf.input parser.phLoad → Agree elf.input parser.phLoad) := by
  cases parsed : crates.elfParser elf crates.config.userInterpBase aspace.base with
  | none =>
      have failed := mapElf_unparsed parsed
      refine iff_of_true ⟨Or.inr ⟨_, congrArg Prod.fst failed⟩, ?_⟩ nofun
      intro value after parser ran
      rw [failed] at ran
      cases (Prod.mk.inj ran).1
  | some parser =>
      have ran := mapElf_parsed parsed
      constructor
      · intro safe same isParser
        obtain rfl := Option.some.inj isParser
        have handled :
            aspace.room.HandlesAll elf.input parser.phLoad := by
          by_contra unhandled
          have answers := safe.answers
          rw [ran, mapSegments_panics loading unhandled] at answers
          rcases answers with ⟨_, impossible⟩ | ⟨_, impossible⟩ <;>
            cases impossible
        refine ⟨handled, ?_⟩
        intro loads first firstMember second secondMember addr one other
          firstDescribes secondDescribes
        obtain ⟨after, loaded, -⟩ := @mapSegments_loads crates elf aspace loading [] _ handled loads
        rw [loaded] at ran
        have faithful := safe.faithful _ _ _ ran parsed
        have firstByte := (faithful first firstMember).byteAt_eq firstDescribes
        have secondByte := (faithful second secondMember).byteAt_eq secondDescribes
        exact Option.some.inj (firstByte.symm.trans secondByte)
      · intro condition
        obtain ⟨handled, agrees⟩ := condition parser rfl
        by_cases loads : aspace.room.LoadsAll elf.input parser.phLoad
        · obtain ⟨after, loaded, shown⟩ :=
            @mapSegments_loads crates elf aspace loading [] _ handled loads
          rw [loaded] at ran
          refine ⟨Or.inl ⟨_, congrArg Prod.fst ran⟩, ?_⟩
          intro value same again isRun isParser segment member
          obtain rfl := Option.some.inj (isParser.symm.trans parsed)
          obtain rfl := (Prod.mk.inj (ran.symm.trans isRun)).2
          exact (shown (agrees loads) nofun segment member).faithful
        · obtain ⟨error, refused⟩ := mapSegments_refused loading handled loads
          rw [refused] at ran
          refine ⟨Or.inr ⟨error, congrArg Prod.fst ran⟩, ?_⟩
          intro value after again isRun
          cases (Prod.mk.inj (ran.symm.trans isRun)).1

/-! ## Concrete crates -/

/-- The reference operations; `map_alloc` refuses an empty range. -/
def Axmm.nonempty : Axmm :=
  { Axmm.reference with
    mapAlloc := fun aspace start size flags populate =>
      if size = 0 then (.error .InvalidInput, aspace)
      else Axmm.reference.mapAlloc aspace start size flags populate }

variable {start size : Nat}

theorem mem_pageNumbers_iff {number : Nat} (nonempty : 0 < size) :
    number ∈ Axmm.pageNumbers start size ↔ Touches start size number := by
  refine ⟨?_, mem_pageNumbers_of_touches⟩
  intro member
  obtain ⟨index, inRange, rfl⟩ := List.mem_map.mp member
  rw [List.mem_range] at inRange
  unfold Touches
  simp only [pageSize4k] at *
  omega

variable {aspace : AddrSpace}

theorem pageNumbers_mapped (first : aspace.IsMapped (start / pageSize4k))
    (allMapped : ∀ index < size, aspace.IsMapped ((start + index) / pageSize4k)) :
    ((Axmm.pageNumbers start size).all fun number =>
      (aspace.pages number).isSome) = true := by
  rw [List.all_eq_true]
  intro number member
  obtain ⟨index, inRange, rfl⟩ := List.mem_map.mp member
  rw [List.mem_range] at inRange
  cases index with
  | zero => exact first
  | succ index =>
      have inside : (start / pageSize4k + (index + 1)) * pageSize4k - start < size := by
        simp only [pageSize4k] at *
        omega
      have isPage :
          (start + ((start / pageSize4k + (index + 1)) * pageSize4k - start)) / pageSize4k =
          start / pageSize4k + (index + 1) := by
        simp only [pageSize4k] at *
        omega
      have mapped := allMapped _ inside
      rw [isPage] at mapped
      exact mapped

theorem byteAt_storeBytes {after : AddrSpace} {data : List UInt8}
    (allMapped : ∀ index < data.length, aspace.IsMapped ((start + index) / pageSize4k))
    (stored : Axmm.storeBytes aspace start data = (.ok (), after))
    (addr : Nat) :
    after.byteAt addr =
      if start ≤ addr ∧ addr < start + data.length then data[addr - start]?
      else aspace.byteAt addr := by
  unfold Axmm.storeBytes at stored
  split at stored
  · obtain rfl := (Prod.mk.inj stored).2
    have isAddr : addr / pageSize4k * pageSize4k + addr % pageSize4k = addr :=
      Nat.div_add_mod' addr pageSize4k
    cases found : aspace.pages (addr / pageSize4k) with
    | none =>
        simp only [AddrSpace.byteAt, found, Option.map_none]
        split
        · next inside =>
            have mapped := allMapped (addr - start) (by omega)
            rw [Nat.add_sub_cancel' inside.1, AddrSpace.IsMapped, found] at mapped
            cases mapped
        · rfl
    | some page =>
        simp only [AddrSpace.byteAt, found, Option.map_some, isAddr]
        split
        · next below => rw [if_neg (by omega)]
        · next above =>
            split
            · next inside =>
                rw [List.getElem?_eq_getElem (by omega), Option.getD_some]
            · next outside =>
                rw [List.getElem?_eq_none (by omega), Option.getD_none]
  · cases (Prod.mk.inj stored).1

theorem mapPages_of_accepts {page : Page} (accepts : aspace.room.Accepts start size) :
    Axmm.mapPages aspace start size page = (.ok (), aspace.withRange start size (some page)) := by
  have notEmpty := accepts.nonempty
  have inside : ¬ (start < aspace.base ∨ aspace.base + aspace.size < start + size) := by
    have lower := accepts.lower
    have upper := accepts.upper
    simp only [AddrSpace.room] at lower upper
    omega
  have free : ¬ ((Axmm.pageNumbers start size).any fun number =>
        (aspace.pages number).isSome) = true := by
    rw [List.any_eq_true]
    rintro ⟨number, member, mapped⟩
    exact accepts.free number ((mem_pageNumbers_iff notEmpty).mp member) mapped
  simp only [Axmm.mapPages, if_neg inside, if_neg free, mem_pageNumbers_iff notEmpty]
  rfl

theorem mapPages_of_refused (page : Page)
    (notEmpty : 0 < size) (refused : ¬ aspace.room.Accepts start size) :
    ∃ error, Axmm.mapPages aspace start size page = (.error error, aspace) := by
  unfold Axmm.mapPages
  split
  · exact ⟨_, rfl⟩
  · next inside =>
      split
      · exact ⟨_, rfl⟩
      · next free =>
          refine absurd ⟨notEmpty, ?_, ?_, ?_⟩ refused
          · simp only [AddrSpace.room]
            omega
          · simp only [AddrSpace.room]
            omega
          · intro number touches mapped
            exact free (List.any_eq_true.mpr ⟨number, mem_pageNumbers_of_touches touches, mapped⟩)

theorem Axmm.nonempty_refuses (flags : MappingFlags) (refused : ¬ aspace.room.Accepts start size) :
    ∃ error, Axmm.nonempty.mapAlloc aspace start size flags true = (.error error, aspace) := by
  by_cases empty : size = 0
  · exact ⟨_, if_pos empty⟩
  · simp only [nonempty, if_neg empty]
    exact mapPages_of_refused _ (Nat.pos_of_ne_zero empty) refused

theorem Axmm.nonempty_maps (flags : MappingFlags) (accepts : aspace.room.Accepts start size) :
    Axmm.nonempty.mapAlloc aspace start size flags true =
      (.ok (), aspace.withRange start size (some (freshPage flags))) := by
  simp only [nonempty, if_neg (Nat.ne_of_gt accepts.nonempty)]
  exact mapPages_of_accepts accepts

theorem Axmm.storeBytes_of_unmapped {data : List UInt8}
    (unmapped : ∃ index < data.length, ¬ aspace.IsMapped ((start + index) / pageSize4k)) :
    storeBytes aspace start data = (.error .BadAddress, aspace) := by
  obtain ⟨index, inside, missing⟩ := unmapped
  have touches : Touches start data.length ((start + index) / pageSize4k) := by
    unfold Touches
    simp only [pageSize4k]
    omega
  refine if_neg ?_
  intro onPages
  exact missing (List.all_eq_true.mp onPages _ (mem_pageNumbers_of_touches touches))

theorem Axmm.nonempty_loading : Axmm.nonempty.Loading where
  maps _ _ _ flags _ _ accepts := nonempty_maps flags accepts
  refuses aspace _ _ flags _ _ refused := by
    obtain ⟨error, failed⟩ := nonempty_refuses flags refused
    exact ⟨error, aspace, failed⟩
  writes aspace start data mapped allMapped := by
    have stored :
        ∃ after, storeBytes aspace start data = (.ok (), after) ∧
          after.base = aspace.base ∧ after.size = aspace.size :=
      ⟨_, if_pos (pageNumbers_mapped mapped allMapped), rfl, rfl⟩
    obtain ⟨after, isStored, sameBase, sameSize⟩ := stored
    exact ⟨after, isStored, sameBase, sameSize, byteAt_storeBytes allMapped isStored⟩
  faults _ _ _ unmapped := ⟨_, _, storeBytes_of_unmapped unmapped⟩

def withSegments (segments : List Segment) : LoaderCrates :=
  { selfScript with
    axmm := .nonempty
    elfParser := fun _ _ _ => some ⟨segments, 0x1000, []⟩ }

/-- Four bytes of data and four zeros. -/
theorem map_elf_faithful_iff_fourBytes :
    (∃ value,
      ((mapElf (withSegments [⟨0x1000, 0, 8, 4, .userText⟩])
        ⟨[1, 2, 3, 4], none⟩).runOn freshAspace).1 = .ok value) ∧
    LoadsFaithfully (withSegments [⟨0x1000, 0, 8, 4, .userText⟩])
      ⟨[1, 2, 3, 4], none⟩ freshAspace := by
  refine ⟨⟨_, rfl⟩, ?_⟩
  rw [map_elf_faithful_iff _ Axmm.nonempty_loading]
  intro parser parsed
  obtain rfl := Option.some.inj parsed
  refine ⟨⟨⟨by decide, by decide, fun _ => by decide⟩, fun _ => trivial⟩, ?_⟩
  intro _ first firstMember second secondMember addr one other firstDescribes secondDescribes
  rw [List.mem_singleton.mp firstMember] at firstDescribes
  rw [List.mem_singleton.mp secondMember] at secondDescribes
  exact Option.some.inj (firstDescribes.symm.trans secondDescribes)

/-- A segment whose address and offset differ within the page fails the
assertion. -/
theorem map_elf_panics_on_offset : (withSegments [⟨0x1001, 0, 8, 4, .userText⟩]).axmm.Loading ∧
    ((mapElf (withSegments [⟨0x1001, 0, 8, 4, .userText⟩])
      ⟨[1, 2, 3, 4], none⟩).runOn freshAspace).1 = .error .panicked ∧
    ¬ LoadsFaithfully (withSegments [⟨0x1001, 0, 8, 4, .userText⟩])
      ⟨[1, 2, 3, 4], none⟩ freshAspace := by
  have panicked :
      ((mapElf (withSegments [⟨0x1001, 0, 8, 4, .userText⟩])
        ⟨[1, 2, 3, 4], none⟩).runOn freshAspace).1 = .error .panicked :=
    rfl
  refine ⟨Axmm.nonempty_loading, panicked, ?_⟩
  intro safe
  have answers := safe.answers
  rw [panicked] at answers
  rcases answers with ⟨_, impossible⟩ | ⟨_, impossible⟩ <;> cases impossible

end Vegar.Mm

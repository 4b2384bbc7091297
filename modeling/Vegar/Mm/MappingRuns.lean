import Vegar.Lib.Blocks
import Vegar.Lib.Roster
import Vegar.Mm.FileMapping
import Vegar.Mm.RangeCalls

/-!
# Mappings over whole runs

`sys_mmap`, `sys_munmap` and `sys_mprotect` of `api/src/imp/mm/mmap.rs` as a
program uses them: it asks for mappings at places the kernel chooses, stores
in those it holds, changes permissions, and gives mappings back whole.  The
run also keeps account of the pages that nobody holds any more.
-/

namespace Vegar.Mm

open Vegar.Lib

/-! ## The world of one address space -/

structure PageRange where
  start : Nat
  size : Nat
  deriving DecidableEq, Repr

def PageRange.share (range : PageRange) (number : Nat) : Nat :=
  if Touches range.start range.size number then 1 else 0

def AddrSpace.share (aspace : AddrSpace) (number : Nat) : Nat := (aspace.pages number).isSome.toNat

structure Mapping where
  request : MmapRequest
  range : PageRange

namespace Mapping

def place (mapping : Mapping) : Place := ⟨mapping.range.start, mapping.request.length⟩

/-- The pages that `sys_munmap` of the length leaves mapped. -/
def remainder (mapping : Mapping) : List PageRange :=
  match alignUp4k mapping.request.length with
  | none => []
  | some rounded =>
      if rounded < mapping.range.size then
        [⟨mapping.range.start + rounded, mapping.range.size - rounded⟩]
      else []

end Mapping

def AddrSpace.userStore (aspace : AddrSpace) (addr : Nat) (value : UInt8) : Option AddrSpace :=
  match aspace.pages (addr / pageSize4k) with
  | none => none
  | some page =>
      if page.flags.write && page.flags.user then
        some
          { aspace with
            pages := fun number =>
              (aspace.pages number).map fun page =>
                { page with
                  bytes := fun offset =>
                    if number * pageSize4k + offset = addr then value
                    else page.bytes offset } }
      else none

def MmapCrates.withFiles (crates : MmapCrates) (files : Int → LinuxResult MmapFile) : MmapCrates :=
  { crates with fileFromFd := files }

namespace MmapRequest

def Movable (request : MmapRequest) : Prop :=
  request.mapFlags.contains MmapFlags.fixed = false ∧ request.pageSize = .size4K

instance (request : MmapRequest) : Decidable request.Movable := inferInstanceAs (Decidable (_ ∧ _))

def mappedSize (request : MmapRequest) : Nat := (request.region.map Prod.snd).getD 0

def read (request : MmapRequest) (crates : MmapCrates) : List UInt8 :=
  if request.populate then
    match fileBytes crates request with
    | .ok buf => buf
    | .error _ => []
  else []

def contents (request : MmapRequest) (crates : MmapCrates) : List UInt8 :=
  List.ofFn fun index : Fin request.length =>
    ((request.read crates)[index.val]?).getD 0

def leftBehind (request : MmapRequest) (crates : MmapCrates) (aspace : AddrSpace) :
    List PageRange :=
  match (mmapTarget crates request).runOn aspace with
  | (.error _, _) => []
  | (.ok (found, size), between) =>
      match mapTarget crates request found size between with
      | (.error _, _) => []
      | (.ok _, _) => [⟨found, size⟩]

end MmapRequest

structure MappingWorld where
  aspace : AddrSpace
  held : List (Option Mapping)
  lost : List PageRange

inductive MappingAction where
  | mmap (files : Int → LinuxResult MmapFile) (request : MmapRequest)
  | munmap (index : Nat)
  | mprotect (addr length : Nat) (prot : BitVec 32)
  | store (index offset : Nat) (value : UInt8)

namespace MappingWorld

def fresh (aspace : AddrSpace) : MappingWorld := ⟨aspace, [], []⟩

def places (world : MappingWorld) : List (Option Place) := world.held.map (Option.map Mapping.place)

def blocks (world : MappingWorld) : Blocks UInt8 := blocksAt world.aspace.byteAt world.places

def slotShare (number : Nat) : Option Mapping → Nat
  | none => 0
  | some mapping => mapping.range.share number

def owners (world : MappingWorld) (number : Nat) : Nat :=
  (world.held.map (slotShare number)).sum + (world.lost.map fun range => range.share number).sum

end MappingWorld

section Machine

variable (crates : ProtectCrates)

def mappingNext (world : MappingWorld) : MappingAction → Option MappingWorld
  | .mmap files request =>
      if request.Movable then
        match (sysMmap (crates.withFiles files) request).runOn world.aspace with
        | (.ok found, after) =>
            some
              { world with
                aspace := after
                held := world.held ++ [some ⟨request, found, request.mappedSize⟩] }
        | (.error (.err _), after) =>
            some
              { world with
                aspace := after
                lost := world.lost ++ request.leftBehind (crates.withFiles files) world.aspace }
        | (.error _, _) => none
      else none
  | .munmap index =>
      match world.held[index]? with
      | some (some mapping) =>
          match (sysMunmap crates.toMmapCrates mapping.range.start
              mapping.request.length).runOn world.aspace with
          | (.ok _, after) =>
              some
                { aspace := after
                  held := world.held.set index none
                  lost := world.lost ++ mapping.remainder }
          | (.error _, _) => none
      | _ => none
  | .mprotect addr length prot =>
      match (sysMprotect crates addr length prot).runOn world.aspace with
      | (.error .panicked, _) => none
      | (_, after) => some { world with aspace := after }
  | .store index offset value =>
      match world.held[index]? with
      | some (some mapping) =>
          if offset < mapping.request.length then
            (world.aspace.userStore (mapping.range.start + offset) value).map
              fun after => { world with aspace := after }
          else none
      | _ => none

def mappingMachine (initial : AddrSpace) : Machine MappingWorld MappingAction where
  start world := world = .fresh initial
  next := mappingNext crates

def blockActions (world : MappingWorld) : MappingAction → List (BlockAction UInt8)
  | .mmap files request =>
      match (sysMmap (crates.withFiles files) request).runOn world.aspace with
      | (.ok _, _) => [.take (request.contents (crates.withFiles files))]
      | (.error _, _) => []
  | .munmap index => [.giveBack index]
  | .mprotect _ _ _ => []
  | .store index offset value => [.put index offset value]

end Machine

/-- What is assumed of `axmm`: the calls behave as documented, and no write or
change of permissions moves the address space or another byte. -/
structure ProtectCrates.Ordinary (crates : ProtectCrates) : Prop where
  documented : crates.toMmapCrates.Documented
  placing : crates.toMmapCrates.Placing
  writes : crates.toMmapCrates.WritesRange
  writeStays :
    ∀ aspace start pageSize data,
      (crates.write aspace start pageSize data).2.base = aspace.base ∧
        (crates.write aspace start pageSize data).2.size = aspace.size
  protectStays :
    ∀ aspace start size flags,
      (crates.protect aspace start size flags).2.base = aspace.base ∧
        (crates.protect aspace start size flags).2.size = aspace.size ∧
        ∀ addr, (crates.protect aspace start size flags).2.byteAt addr = aspace.byteAt addr

/-! ## What one call does -/

structure AddrSpace.SameBytes (before after : AddrSpace) : Prop where
  base : after.base = before.base
  size : after.size = before.size
  byteAt : ∀ addr, after.byteAt addr = before.byteAt addr

structure PageRange.Fits (range : PageRange) (request : MmapRequest) (aspace : AddrSpace) :
    Prop where
  region : ∃ start, request.region = some (start, range.size)
  aligned : range.start % pageSize4k = 0
  above : aspace.base ≤ range.start
  below : range.start + range.size ≤ aspace.base + aspace.size

structure AddrSpace.Gains (before after : AddrSpace) (range : PageRange) (bytes : Nat → UInt8) :
    Prop where
  base : after.base = before.base
  size : after.size = before.size
  free : ∀ number, Touches range.start range.size number → before.pages number = none
  byteAt :
    ∀ addr, after.byteAt addr =
      if Touches range.start range.size (addr / pageSize4k) then
        some (bytes (addr - range.start))
      else before.byteAt addr

section Shares

variable {aspace after : AddrSpace}

theorem AddrSpace.isSome_pages (number : Nat) :
    (aspace.pages number).isSome = (aspace.byteAt (number * pageSize4k)).isSome := by
  rw [AddrSpace.byteAt, Nat.mul_div_cancel _ (by decide), Option.isSome_map]

theorem AddrSpace.share_of_byteAt
    (same : ∀ addr, (after.byteAt addr).isSome = (aspace.byteAt addr).isSome)
    (number : Nat) :
    after.share number = aspace.share number := by
  rw [share, share, isSome_pages, isSome_pages, same]

theorem AddrSpace.share_eq_one_iff {number : Nat} :
    aspace.share number = 1 ↔ aspace.IsMapped number := by
  rw [share, IsMapped]
  cases (aspace.pages number).isSome <;> simp

theorem AddrSpace.share_le_one (number : Nat) : aspace.share number ≤ 1 := Bool.toNat_le _

theorem AddrSpace.Gains.share {range : PageRange} {bytes : Nat → UInt8}
    (gains : aspace.Gains after range bytes) (number : Nat) :
    after.share number = range.share number + aspace.share number := by
  rw [AddrSpace.share, AddrSpace.share, AddrSpace.isSome_pages,
    gains.byteAt, Nat.mul_div_cancel _ (by decide), PageRange.share]
  by_cases touches : Touches range.start range.size number
  · rw [if_pos touches, if_pos touches, gains.free number touches]
    rfl
  · rw [if_neg touches, if_neg touches, Nat.zero_add, AddrSpace.isSome_pages]

end Shares

section Calls

variable {crates : MmapCrates} {request : MmapRequest} {aspace after : AddrSpace}

theorem MmapCrates.Documented.withFiles
    (documented : crates.Documented) (files : Int → LinuxResult MmapFile) :
    (crates.withFiles files).Documented where
  unmapFails := documented.unmapFails
  unmapRemoves := documented.unmapRemoves
  mapFails := documented.mapFails
  mapMaps := documented.mapMaps
  writesMapped := documented.writesMapped

theorem MmapCrates.Placing.withFiles
    (placing : crates.Placing) (files : Int → LinuxResult MmapFile) :
    (crates.withFiles files).Placing where
  findsFree := placing.findsFree
  unmapsInside := placing.unmapsInside

theorem fits_of_mmapTarget (placing : crates.Placing) (movable : request.Movable)
    {found size : Nat} {between : AddrSpace}
    (ran : (mmapTarget crates request).runOn aspace = (.ok (found, size), between)) :
    PageRange.Fits ⟨found, size⟩ request aspace ∧
      ∀ number, Touches found size number → aspace.pages number = none := by
  obtain ⟨region, aligned, above, below, free⟩ :=
    mmapTarget_movable_ok placing movable.1 movable.2 ran
  exact ⟨⟨region, aligned, above, below⟩, free⟩

theorem gains_withRange {found size : Nat}
    (free : ∀ number, Touches found size number →
      aspace.pages number = none) (flags : MappingFlags) :
    aspace.Gains (aspace.withRange found size (some (freshPage flags)))
      ⟨found, size⟩ fun _ => 0 where
  base := rfl
  size := rfl
  free := free
  byteAt := aspace.byteAt_withRange found size flags

theorem AddrSpace.Gains.write (writes : crates.WritesRange) {mapped : AddrSpace} {range : PageRange}
    {buf : List UInt8} {pageSize : PageSize}
    (gains : aspace.Gains mapped range fun _ => 0)
    (aligned : range.start % pageSize4k = 0)
    (covered : buf.length ≤ range.size)
    (wrote : crates.write mapped range.start pageSize buf = (.ok (), after))
    (sameBase : after.base = mapped.base)
    (sameSize : after.size = mapped.size) :
    aspace.Gains after range fun index => (buf[index]?).getD 0 where
  base := sameBase.trans gains.base
  size := sameSize.trans gains.size
  free := gains.free
  byteAt addr := by
    have inFront {index : Nat} (below : index < buf.length) :
        Touches range.start range.size ((range.start + index) / pageSize4k) := by
      simp only [Touches, pageSize4k]
      omega
    have allMapped :
        ∀ index < buf.length, mapped.IsMapped ((range.start + index) / pageSize4k) := by
      intro index below
      rw [← AddrSpace.isSome_byteAt, gains.byteAt, if_pos (inFront below)]
      rfl
    rw [writes _ _ _ _ _ allMapped wrote, gains.byteAt]
    by_cases inside : range.start ≤ addr ∧ addr < range.start + buf.length
    · have touches := @inFront (addr - range.start) (by omega)
      rw [Nat.add_sub_cancel' inside.1] at touches
      rw [if_pos inside, if_pos touches, List.getElem?_eq_getElem (by omega), Option.getD_some]
    · rw [if_neg inside]
      by_cases touches : Touches range.start range.size (addr / pageSize4k)
      · have outside : buf.length ≤ addr - range.start := by
          simp only [Touches, pageSize4k] at touches aligned
          omega
        rw [if_pos touches, if_pos touches, List.getElem?_eq_none outside, Option.getD_none]
      · rw [if_neg touches, if_neg touches]

theorem sysMmap_gains (documented : crates.Documented) (placing : crates.Placing)
    (writes : crates.WritesRange)
    (writeStays :
      ∀ aspace start pageSize data,
        (crates.write aspace start pageSize data).2.base = aspace.base ∧
          (crates.write aspace start pageSize data).2.size = aspace.size)
    (movable : request.Movable) {found : Nat}
    (succeeded : (sysMmap crates request).runOn aspace = (.ok found, after)) :
    PageRange.Fits ⟨found, request.mappedSize⟩ request aspace ∧
      aspace.Gains after ⟨found, request.mappedSize⟩ fun index =>
        ((request.read crates)[index]?).getD 0 := by
  obtain ⟨size, between, ran, filled⟩ := sysMmap_ok documented succeeded
  obtain ⟨fits, free⟩ := fits_of_mmapTarget placing movable ran
  obtain ⟨start, region⟩ := fits.region
  have isSize : request.mappedSize = size := by
    rw [MmapRequest.mappedSize, region]
    rfl
  have gains := gains_withRange free (mappingFlags request.prot)
  rw [isSize]
  refine ⟨fits, ?_⟩
  unfold MmapRequest.read
  by_cases populates : request.populate = true
  · obtain ⟨fileStart, fileSize, buf, fileRegion, read, wrote⟩ :=
      sysMmap_populate_ok documented populates succeeded
    obtain rfl : size = fileSize := (Prod.mk.inj (Option.some.inj (region.symm.trans fileRegion))).2
    have stays := writeStays
      (aspace.withRange found size (some (freshPage (mappingFlags request.prot))))
      found request.pageSize buf
    rw [wrote] at stays
    simp only [if_pos populates, read]
    exact gains.write writes fits.aligned
      ((length_le_of_fileBytes read).trans (MmapRequest.length_le_of_region region))
      wrote stays.1 stays.2
  · rw [fillFromFile, if_neg populates, AspaceM.runOn_pure] at filled
    rw [← (Prod.mk.inj filled).2, if_neg populates]
    exact gains

theorem sysMmap_refused (documented : crates.Documented) (placing : crates.Placing)
    (movable : request.Movable) {error : LinuxError}
    (failed : (sysMmap crates request).runOn aspace = (.error (.err error), after)) :
    after = aspace ∧ request.leftBehind crates aspace = [] ∨
      ∃ range, request.leftBehind crates aspace = [range] ∧
        (∃ bytes, aspace.Gains after range bytes) ∧
        request.populate = true ∧
        ∃ refusal, fileBytes crates request = .error refusal := by
  have spec := @mmapTarget_spec crates request aspace documented
  unfold MmapRequest.leftBehind
  cases ran : (mmapTarget crates request).runOn aspace with
  | mk result between =>
  rw [ran] at spec
  cases result with
  | error fault =>
      rw [sysMmap, AspaceM.runOn_bind, ran] at failed
      exact Or.inl ⟨(Prod.mk.inj failed).2.symm.trans spec, rfl⟩
  | ok target =>
      obtain ⟨found, size⟩ := target
      obtain ⟨covered, isBetween⟩ := spec
      have unchanged : between = aspace := by
        rw [isBetween, cleared, movable.1]
        exact if_neg Bool.false_ne_true
      obtain ⟨-, free⟩ := fits_of_mmapTarget placing movable ran
      rw [sysMmap_runOn ran] at failed
      dsimp only
      cases mappedAs : mapTarget crates request found size between with
      | mk result mapped =>
      rw [mappedAs] at failed
      cases result with
      | error error =>
          have same := documented.mapFails _ _ _ _ _ _ _ _ mappedAs
          exact Or.inl ⟨(Prod.mk.inj failed).2.symm.trans (same.trans unchanged), rfl⟩
      | ok done =>
          have isMapped := mapTarget_ok documented isBetween mappedAs
          have filled := @fillFromFile_spec crates request mapped documented found size
              covered fun number touches => by
                rw [isMapped]
                exact isSome_of_withRange touches
          dsimp only at failed
          rcases filled with ⟨refusal, populates, refused, kept⟩ | read
          · rw [kept] at failed
            have isAfter : mapped = after := (Prod.mk.inj failed).2
            refine Or.inr ⟨⟨found, size⟩, rfl, ⟨fun _ => 0, ?_⟩, populates, refusal, refused⟩
            rw [← isAfter, isMapped]
            exact gains_withRange free _
          · obtain ⟨-, final, succeeded⟩ := read
            rw [succeeded] at failed
            cases (Prod.mk.inj failed).1

theorem sysMunmap_of_fits (documented : crates.Documented) (placing : crates.Placing)
    {range : PageRange} (movable : request.Movable)
    (fits : range.Fits request aspace) :
    ∃ rounded, alignUp4k request.length = some rounded ∧
      rounded % pageSize4k = 0 ∧ rounded ≤ range.size ∧
      (range.size = rounded ↔ request.HintFits) ∧
      (sysMunmap crates range.start request.length).runOn aspace =
        (.ok 0, aspace.withRange range.start rounded none) := by
  obtain ⟨start, region⟩ := fits.region
  obtain ⟨-, rounded, up, whole, shorter, iffFits⟩ := MmapRequest.region_of_4k movable.2 region
  refine ⟨rounded, up, whole, shorter, iffFits, ?_⟩
  exact sysMunmap_runOn documented placing up whole fits.aligned fits.above
    ((Nat.add_le_add_left shorter _).trans fits.below)

theorem sysMprotect_sameBytes {crates : ProtectCrates} (ordinary : crates.Ordinary)
    (addr length : Nat) (prot : BitVec 32) :
    aspace.SameBytes ((sysMprotect crates addr length prot).runOn aspace).2 := by
  by_cases refused : RefusedProt prot
  · rw [sysMprotect_of_refused refused]
    exact ⟨rfl, rfl, fun _ => rfl⟩
  · rw [sysMprotect_of_accepted refused]
    unfold onRoundedRange
    cases up : alignUp4k length with
    | none => exact ⟨rfl, rfl, fun _ => rfl⟩
    | some rounded =>
        have stays := ordinary.protectStays aspace addr rounded (mappingFlags prot)
        simp only [AspaceM.runOn_bind, AspaceM.runOn_mapErr_ofAxmm]
        rcases changed : crates.protect aspace addr rounded (mappingFlags prot) with ⟨_ | _, final⟩
        · rw [changed] at stays
          exact ⟨stays.1, stays.2.1, stays.2.2⟩
        · rw [changed] at stays
          exact ⟨stays.1, stays.2.1, stays.2.2⟩

theorem userStore_eq_some {addr : Nat} {value : UInt8}
    (stored : aspace.userStore addr value = some after) :
    after.base = aspace.base ∧ after.size = aspace.size ∧ aspace.IsMapped (addr / pageSize4k) ∧
      after.byteAt = Function.update aspace.byteAt addr (some value) := by
  unfold AddrSpace.userStore at stored
  split at stored
  · cases stored
  · next page found =>
      obtain ⟨-, isAfter⟩ := Option.ite_none_right_eq_some.mp stored
      obtain rfl := Option.some.inj isAfter
      refine ⟨rfl, rfl, by rw [AddrSpace.IsMapped, found]; rfl, ?_⟩
      funext asked
      have isAsked : asked / pageSize4k * pageSize4k + asked % pageSize4k = asked :=
        Nat.div_add_mod' asked pageSize4k
      by_cases same : asked = addr
      · subst asked
        simp only [Function.update_self, AddrSpace.byteAt, found, Option.map_some, isAsked, if_true]
      · simp only [Function.update_of_ne same, AddrSpace.byteAt, Option.map_map]
        congr 1
        funext other
        simp only [Function.comp_apply, isAsked, if_neg same]

end Calls

/-! ## Every mapped page has one owner -/

structure MappingsSound (initial : AddrSpace) (world : MappingWorld) : Prop where
  base : world.aspace.base = initial.base
  size : world.aspace.size = initial.size
  owned : ∀ number, world.owners number + initial.share number = world.aspace.share number
  kept :
    ∀ addr, initial.IsMapped (addr / pageSize4k) → world.aspace.byteAt addr = initial.byteAt addr
  fits :
    ∀ mapping, some mapping ∈ world.held →
      mapping.request.Movable ∧ mapping.range.Fits mapping.request initial

namespace MappingWorld

variable {world : MappingWorld} {index : Nat} {mapping : Mapping}

theorem owners_giveBack (found : world.held[index]? = some (some mapping))
    (aspace : AddrSpace) (lost : List PageRange) (number : Nat) :
    owners ⟨aspace, world.held.set index none, world.lost ++ lost⟩ number +
        mapping.range.share number =
      world.owners number + (lost.map fun range => range.share number).sum := by
  have changed :
      ((world.held.set index none).map (slotShare number)).sum + slotShare number (some mapping) =
        (world.held.map (slotShare number)).sum + slotShare number none :=
    Roster.sum_map_set_add (slotShare number) found
  simp only [slotShare] at changed
  simp only [owners, List.map_append, List.sum_append]
  omega

theorem share_le_owners (found : world.held[index]? = some (some mapping)) (number : Nat) :
    mapping.range.share number ≤ world.owners number := by
  have without := owners_giveBack found world.aspace [] number
  rw [List.map_nil, List.sum_nil, Nat.add_zero] at without
  omega

theorem share_add_share_le_owners {other : Nat} {otherMapping : Mapping}
    (found : world.held[index]? = some (some mapping))
    (otherFound : world.held[other]? = some (some otherMapping))
    (different : index ≠ other) (number : Nat) :
    mapping.range.share number + otherMapping.range.share number ≤
      world.owners number := by
  have without := owners_giveBack found world.aspace [] number
  have rest := @share_le_owners ⟨world.aspace, world.held.set index none, world.lost ++ []⟩ other
      otherMapping (by rw [List.getElem?_set_ne different, otherFound])
      number
  rw [List.map_nil, List.sum_nil, Nat.add_zero] at without
  omega

theorem owners_hold (aspace : AddrSpace) (number : Nat) :
    owners ⟨aspace, world.held ++ [some mapping], world.lost⟩ number =
      mapping.range.share number + world.owners number := by
  simp only [owners, List.map_append, List.sum_append, List.map_singleton,
    List.sum_singleton, slotShare]
  omega

theorem owners_lose (aspace : AddrSpace) (range : PageRange) (number : Nat) :
    owners ⟨aspace, world.held, world.lost ++ [range]⟩ number =
      range.share number + world.owners number := by
  simp only [owners, List.map_append, List.sum_append, List.map_singleton, List.sum_singleton]
  omega

theorem getElem?_places (found : world.held[index]? = some (some mapping)) :
    world.places[index]? = some (some mapping.place) := by
  rw [places, List.getElem?_map, found]
  rfl

theorem exists_held_of_places {place : Place} (found : world.places[index]? = some (some place)) :
    ∃ mapping, world.held[index]? = some (some mapping) ∧ mapping.place = place := by
  rw [places, List.getElem?_map] at found
  obtain ⟨slot, isSlot, isPlace⟩ := Option.map_eq_some_iff.mp found
  obtain ⟨mapping, rfl, same⟩ := Option.map_eq_some_iff.mp isPlace
  exact ⟨mapping, isSlot, same⟩

theorem blocks_hold (aspace : AddrSpace) (lost : List PageRange) :
    blocks ⟨aspace, world.held ++ [some mapping], lost⟩ =
      blocksAt aspace.byteAt (world.places ++ [some mapping.place]) := by
  rw [blocks, places, List.map_append]
  rfl

theorem blocks_set_none (aspace : AddrSpace) (lost : List PageRange) :
    blocks ⟨aspace, world.held.set index none, lost⟩ =
      blocksAt aspace.byteAt (world.places.set index none) := by
  rw [blocks, places, List.map_set]
  rfl

end MappingWorld

theorem PageRange.share_eq_one {range : PageRange} {number : Nat}
    (touches : Touches range.start range.size number) :
    range.share number = 1 :=
  if_pos touches

theorem PageRange.Fits.touches_of_covers {mapping : Mapping} {aspace : AddrSpace} {addr : Nat}
    (fits : mapping.range.Fits mapping.request aspace)
    (covers : mapping.place.Covers addr) :
    Touches mapping.range.start mapping.range.size (addr / pageSize4k) := by
  obtain ⟨start, region⟩ := fits.region
  have longer := MmapRequest.length_le_of_region region
  obtain ⟨above, below⟩ := covers
  simp only [Mapping.place] at above below
  simp only [Touches, pageSize4k]
  omega

namespace MappingsSound

variable {initial after : AddrSpace} {world : MappingWorld} {index : Nat}
  {mapping : Mapping} {addr : Nat}

theorem fresh (initial : AddrSpace) : MappingsSound initial (.fresh initial) where
  base := rfl
  size := rfl
  owned number := Nat.zero_add _
  kept _ _ := rfl
  fits mapping member := by cases member

section Facts

variable (sound : MappingsSound initial world)

include sound

theorem isMapped_of_initial {number : Nat} (was : initial.IsMapped number) :
    world.aspace.IsMapped number ∧ world.owners number = 0 := by
  have isOwned := sound.owned number
  have first := AddrSpace.share_eq_one_iff.mpr was
  have most := @AddrSpace.share_le_one world.aspace number
  exact ⟨AddrSpace.share_eq_one_iff.mp (by omega), by omega⟩

theorem isMapped_of_touches (found : world.held[index]? = some (some mapping)) {number : Nat}
    (touches : Touches mapping.range.start mapping.range.size number) :
    world.aspace.IsMapped number ∧ ¬ initial.IsMapped number := by
  have isOwned := sound.owned number
  have held := MappingWorld.share_le_owners found number
  rw [PageRange.share_eq_one touches] at held
  have most := @AddrSpace.share_le_one world.aspace number
  refine ⟨AddrSpace.share_eq_one_iff.mp (by omega), ?_⟩
  intro was
  have first := AddrSpace.share_eq_one_iff.mpr was
  omega

theorem touches_of_held (found : world.held[index]? = some (some mapping))
    (covers : mapping.place.Covers addr) :
    Touches mapping.range.start mapping.range.size (addr / pageSize4k) :=
  (sound.fits mapping (List.mem_of_getElem? found)).2.touches_of_covers covers

theorem eq_of_touches {other : Nat} {otherMapping : Mapping}
    (found : world.held[index]? = some (some mapping))
    (otherFound : world.held[other]? = some (some otherMapping))
    {number : Nat}
    (touches : Touches mapping.range.start mapping.range.size number)
    (otherTouches : Touches otherMapping.range.start otherMapping.range.size number) :
    index = other := by
  by_contra different
  have both := MappingWorld.share_add_share_le_owners found otherFound different number
  rw [PageRange.share_eq_one touches, PageRange.share_eq_one otherTouches] at both
  have isOwned := sound.owned number
  have most := @AddrSpace.share_le_one world.aspace number
  omega

theorem exists_read (found : world.held[index]? = some (some mapping)) :
    ∃ contents, mapping.place.read world.aspace.byteAt = some contents ∧
      contents.length = mapping.request.length := by
  have there : ∀ addr, mapping.place.Covers addr → (world.aspace.byteAt addr).isSome = true := by
    intro addr covers
    rw [AddrSpace.isSome_byteAt]
    exact (sound.isMapped_of_touches found (sound.touches_of_held found covers)).1
  obtain ⟨contents, read⟩ := Place.exists_read there
  exact ⟨contents, read, (cells_eq_some_iff.mp read).1⟩

theorem blocksAt_gains {range : PageRange} {bytes : Nat → UInt8}
    (gains : world.aspace.Gains after range bytes) :
    blocksAt after.byteAt world.places = world.blocks := by
  apply blocksAt_congr
  intro place member addr covers
  obtain ⟨index, isPlace⟩ := List.getElem?_of_mem member
  obtain ⟨mapping, found, rfl⟩ := MappingWorld.exists_held_of_places isPlace
  have isMapped := (sound.isMapped_of_touches found (sound.touches_of_held found covers)).1
  rw [gains.byteAt]
  apply if_neg
  intro touches
  rw [AddrSpace.IsMapped, gains.free _ touches] at isMapped
  cases isMapped

theorem kept_gains {range : PageRange} {bytes : Nat → UInt8}
    (gains : world.aspace.Gains after range bytes)
    (was : initial.IsMapped (addr / pageSize4k)) :
    after.byteAt addr = initial.byteAt addr := by
  have isMapped := (sound.isMapped_of_initial was).1
  rw [gains.byteAt, if_neg, sound.kept addr was]
  intro touches
  rw [AddrSpace.IsMapped, gains.free _ touches] at isMapped
  cases isMapped

end Facts

/-! ### The steps -/

section Steps

variable (sound : MappingsSound initial world)

include sound

theorem hold {request : MmapRequest} {range : PageRange} {bytes : Nat → UInt8}
    (movable : request.Movable) (fits : range.Fits request world.aspace)
    (gains : world.aspace.Gains after range bytes) :
    MappingsSound initial ⟨after, world.held ++ [some ⟨request, range⟩], world.lost⟩ where
  base := gains.base.trans sound.base
  size := gains.size.trans sound.size
  owned number := by
    rw [MappingWorld.owners_hold, gains.share, ← sound.owned]
    exact Nat.add_assoc _ _ _
  kept addr was := sound.kept_gains gains was
  fits mapping member := by
    rcases List.mem_append.mp member with old | new
    · exact sound.fits mapping old
    · obtain rfl := Option.some.inj (List.mem_singleton.mp new)
      refine ⟨movable, fits.region, fits.aligned, ?_, ?_⟩
      · rw [← sound.base]
        exact fits.above
      · rw [← sound.base, ← sound.size]
        exact fits.below

theorem lose {range : PageRange} {bytes : Nat → UInt8}
    (gains : world.aspace.Gains after range bytes) :
    MappingsSound initial ⟨after, world.held, world.lost ++ [range]⟩ where
  base := gains.base.trans sound.base
  size := gains.size.trans sound.size
  owned number := by
    rw [MappingWorld.owners_lose, gains.share, ← sound.owned]
    exact Nat.add_assoc _ _ _
  kept addr was := sound.kept_gains gains was
  fits := sound.fits

theorem setBytes (sameBase : after.base = world.aspace.base)
    (sameSize : after.size = world.aspace.size)
    (sameMapped : ∀ addr, (after.byteAt addr).isSome = (world.aspace.byteAt addr).isSome)
    (kept : ∀ addr, initial.IsMapped (addr / pageSize4k) →
      after.byteAt addr = world.aspace.byteAt addr) :
    MappingsSound initial { world with aspace := after } where
  base := sameBase.trans sound.base
  size := sameSize.trans sound.size
  owned number := by
    rw [AddrSpace.share_of_byteAt sameMapped, ← sound.owned]
    rfl
  kept addr was := (kept addr was).trans (sound.kept addr was)
  fits := sound.fits

end Steps

end MappingsSound

section GiveBack

theorem share_withRange_none (aspace : AddrSpace) (start size number : Nat) :
    (aspace.withRange start size none).share number =
      if Touches start size number then 0 else aspace.share number := by
  rw [AddrSpace.share, AddrSpace.withRange]
  by_cases touches : Touches start size number
  · simp only [if_pos touches]
    rfl
  · simp only [if_neg touches]
    rfl

theorem byteAt_withRange_none {aspace : AddrSpace} {start size addr : Nat}
    (outside : ¬ Touches start size (addr / pageSize4k)) :
    (aspace.withRange start size none).byteAt addr = aspace.byteAt addr := by
  simp only [AddrSpace.byteAt, AddrSpace.withRange, if_neg outside]

theorem PageRange.share_cut {start front size : Nat} (aligned : start % pageSize4k = 0)
    (whole : front % pageSize4k = 0) (shorter : front ≤ size)
    (number : Nat) :
    PageRange.share ⟨start + front, size - front⟩ number + PageRange.share ⟨start, front⟩ number =
      PageRange.share ⟨start, size⟩ number := by
  have either :
      Touches start size number ↔
        Touches start front number ∨ Touches (start + front) (size - front) number := by
    simp only [Touches, pageSize4k] at *
    omega
  have notBoth :
      ¬ (Touches start front number ∧ Touches (start + front) (size - front) number) := by
    simp only [Touches, pageSize4k] at *
    omega
  simp only [PageRange.share, either]
  by_cases first : Touches start front number
  · rw [if_neg fun second => notBoth ⟨first, second⟩, if_pos first, if_pos (Or.inl first)]
  · rw [if_neg first, Nat.add_zero]
    simp only [first, false_or]

theorem Mapping.share_remainder {mapping : Mapping} {rounded : Nat}
    (up : alignUp4k mapping.request.length = some rounded)
    (whole : rounded % pageSize4k = 0)
    (aligned : mapping.range.start % pageSize4k = 0)
    (shorter : rounded ≤ mapping.range.size) (number : Nat) :
    (mapping.remainder.map fun range => range.share number).sum +
        PageRange.share ⟨mapping.range.start, rounded⟩ number =
      mapping.range.share number := by
  unfold Mapping.remainder
  simp only [up]
  by_cases more : rounded < mapping.range.size
  · rw [if_pos more, List.map_singleton, List.sum_singleton]
    exact PageRange.share_cut aligned whole shorter number
  · have same : mapping.range.size = rounded := Nat.le_antisymm (Nat.le_of_not_lt more) shorter
    rw [if_neg more, List.map_nil, List.sum_nil, Nat.zero_add, ← same]

end GiveBack

namespace MappingsSound

variable {initial : AddrSpace} {world : MappingWorld} {index : Nat}
  {mapping : Mapping} {rounded : Nat}

theorem munmap_held {crates : ProtectCrates} (ordinary : crates.Ordinary)
    (sound : MappingsSound initial world)
    (found : world.held[index]? = some (some mapping)) :
    ∃ rounded, alignUp4k mapping.request.length = some rounded ∧
      rounded % pageSize4k = 0 ∧ rounded ≤ mapping.range.size ∧
      (mapping.range.size = rounded ↔ mapping.request.HintFits) ∧
      (sysMunmap crates.toMmapCrates mapping.range.start
          mapping.request.length).runOn world.aspace =
        (.ok 0, world.aspace.withRange mapping.range.start rounded none) := by
  obtain ⟨movable, fits⟩ := sound.fits mapping (List.mem_of_getElem? found)
  have fitsNow : mapping.range.Fits mapping.request world.aspace := by
    refine ⟨fits.region, fits.aligned, ?_, ?_⟩
    · rw [sound.base]
      exact fits.above
    · rw [sound.base, sound.size]
      exact fits.below
  exact sysMunmap_of_fits ordinary.documented ordinary.placing movable fitsNow

theorem giveBack (sound : MappingsSound initial world)
    (found : world.held[index]? = some (some mapping))
    (up : alignUp4k mapping.request.length = some rounded)
    (whole : rounded % pageSize4k = 0)
    (shorter : rounded ≤ mapping.range.size) :
    MappingsSound initial
      ⟨world.aspace.withRange mapping.range.start rounded none,
        world.held.set index none, world.lost ++ mapping.remainder⟩ := by
  have fits := (sound.fits mapping (List.mem_of_getElem? found)).2
  refine ⟨sound.base, sound.size, ?_, ?_, ?_⟩
  · intro number
    have changed :=
      MappingWorld.owners_giveBack found (world.aspace.withRange mapping.range.start rounded none)
        mapping.remainder number
    have parts := Mapping.share_remainder up whole fits.aligned shorter number
    have isOwned := sound.owned number
    rw [share_withRange_none]
    by_cases touches : Touches mapping.range.start rounded number
    · have all := PageRange.share_eq_one (touches.mono shorter)
      have most := @AddrSpace.share_le_one world.aspace number
      rw [if_pos touches]
      rw [PageRange.share_eq_one touches] at parts
      omega
    · have none : PageRange.share ⟨mapping.range.start, rounded⟩ number = 0 := if_neg touches
      rw [if_neg touches]
      omega
  · intro addr was
    rw [byteAt_withRange_none, sound.kept addr was]
    intro touches
    exact (sound.isMapped_of_touches found (touches.mono shorter)).2 was
  · intro other member
    rcases List.mem_or_eq_of_mem_set member with old | new
    · exact sound.fits other old
    · cases new

theorem blocks_giveBack (sound : MappingsSound initial world)
    (found : world.held[index]? = some (some mapping))
    (shorter : rounded ≤ mapping.range.size) :
    blocksAt (world.aspace.withRange mapping.range.start rounded none).byteAt
        (world.places.set index none) =
      world.blocks.set index none := by
  rw [MappingWorld.blocks, ← blocksAt_set_none]
  apply blocksAt_congr
  intro place member addr covers
  obtain ⟨other, isPlace⟩ := List.getElem?_of_mem member
  have different : index ≠ other := by
    rintro rfl
    rw [List.getElem?_set_self'] at isPlace
    obtain ⟨slot, -, isNone⟩ := Option.map_eq_some_iff.mp isPlace
    cases isNone
  rw [List.getElem?_set_ne different] at isPlace
  obtain ⟨otherMapping, otherFound, rfl⟩ := MappingWorld.exists_held_of_places isPlace
  apply byteAt_withRange_none
  intro touches
  exact different
    (sound.eq_of_touches found otherFound (touches.mono shorter)
      (sound.touches_of_held otherFound covers))

end MappingsSound

/-! ## Whole runs -/

section Runs

variable {crates : ProtectCrates} {initial : AddrSpace} {world target : MappingWorld}

structure MappingStep (crates : ProtectCrates) (initial : AddrSpace)
    (world : MappingWorld) (action : MappingAction)
    (target : MappingWorld) : Prop where
  sound : MappingsSound initial target
  seen :
    (Blocks.machine UInt8).exec world.blocks (blockActions crates world action) = some target.blocks

theorem read_contents {crates : MmapCrates} {request : MmapRequest} {aspace after : AddrSpace}
    {range : PageRange} (fits : range.Fits request aspace)
    (gains : aspace.Gains after range fun index =>
      ((request.read crates)[index]?).getD 0) :
    (Mapping.place ⟨request, range⟩).read after.byteAt = some (request.contents crates) := by
  refine cells_eq_some_iff.mpr ⟨List.length_ofFn, ?_⟩
  intro index below
  have covers : (Mapping.place ⟨request, range⟩).Covers (range.start + index) :=
    ⟨Nat.le_add_right _ _, Nat.add_lt_add_left below _⟩
  have known :
      (request.contents crates)[index]? = some (((request.read crates)[index]?).getD 0) := by
    rw [MmapRequest.contents, List.getElem?_ofFn]
    exact dif_pos below
  change after.byteAt (range.start + index) = _
  rw [known, gains.byteAt, if_pos (fits.touches_of_covers covers), Nat.add_sub_cancel_left]

section Steps

variable (ordinary : crates.Ordinary) (sound : MappingsSound initial world)

include ordinary sound

theorem mapping_step_mmap {files : Int → LinuxResult MmapFile} {request : MmapRequest}
    (stepped : mappingNext crates world (.mmap files request) = some target) :
    MappingStep crates initial world (.mmap files request) target := by
  have documented := ordinary.documented.withFiles files
  have placing := ordinary.placing.withFiles files
  obtain ⟨movable, stepped⟩ := Option.ite_none_right_eq_some.mp stepped
  split at stepped
  · next found after succeeded =>
      obtain rfl := Option.some.inj stepped
      obtain ⟨fits, gains⟩ := sysMmap_gains documented placing
        ordinary.writes ordinary.writeStays movable succeeded
      refine ⟨sound.hold movable fits gains, ?_⟩
      have seen :
          blocksAt after.byteAt
              (world.places ++ [some (Mapping.place ⟨request, found, request.mappedSize⟩)]) =
            world.blocks ++ [some (request.contents (crates.withFiles files))] := by
        rw [blocksAt_concat (read_contents fits gains), sound.blocksAt_gains gains]
      have taken :
          blockActions crates world (.mmap files request) =
            [.take (request.contents (crates.withFiles files))] := by
        rw [blockActions, succeeded]
      rw [taken, MappingWorld.blocks_hold, seen]
      rfl
  · next error after failed =>
      obtain rfl := Option.some.inj stepped
      have unseen : blockActions crates world (.mmap files request) = [] := by
        rw [blockActions, failed]
      rcases sysMmap_refused documented placing movable failed with
        ⟨rfl, nothing⟩ | ⟨range, left, ⟨bytes, gains⟩, -, -⟩
      · rw [nothing, List.append_nil]
        exact ⟨sound, by rw [unseen]; rfl⟩
      · rw [left]
        refine ⟨sound.lose gains, ?_⟩
        rw [unseen, Machine.exec_nil, ← sound.blocksAt_gains gains]
        rfl
  · cases stepped

theorem mapping_step_munmap {index : Nat}
    (stepped : mappingNext crates world (.munmap index) = some target) :
    MappingStep crates initial world (.munmap index) target := by
  rw [mappingNext] at stepped
  split at stepped
  · next mapping found =>
      obtain ⟨rounded, up, whole, shorter, -, removed⟩ := sound.munmap_held ordinary found
      rw [removed] at stepped
      obtain rfl := Option.some.inj stepped
      refine ⟨sound.giveBack found up whole shorter, ?_⟩
      obtain ⟨contents, read, -⟩ := sound.exists_read found
      have given :
          (Blocks.machine UInt8).next world.blocks (.giveBack index) =
            some (world.blocks.set index none) :=
        Blocks.next_giveBack (getElem?_blocksAt (MappingWorld.getElem?_places found) read)
      have seen := sound.blocks_giveBack found shorter
      rw [blockActions, Machine.exec_cons]
      rw [given, Option.bind_some, Machine.exec_nil, MappingWorld.blocks_set_none, seen]
  · cases stepped

theorem mapping_step_mprotect {addr length : Nat} {prot : BitVec 32}
    (stepped : mappingNext crates world (.mprotect addr length prot) = some target) :
    MappingStep crates initial world (.mprotect addr length prot) target := by
  have same := @sysMprotect_sameBytes world.aspace crates ordinary addr length prot
  have isTarget :
      target =
        { world with
          aspace := ((sysMprotect crates addr length prot).runOn world.aspace).2 } := by
    rw [mappingNext] at stepped
    split at stepped
    · cases stepped
    · next ran =>
        rw [ran]
        exact (Option.some.inj stepped).symm
  subst isTarget
  refine ⟨sound.setBytes same.base same.size ?_ ?_, ?_⟩
  · intro asked
    rw [same.byteAt]
  · intro asked _
    exact same.byteAt asked
  · rw [blockActions, Machine.exec_nil, MappingWorld.blocks,
      MappingWorld.blocks, funext same.byteAt]
    rfl

omit ordinary in
theorem mapping_step_store {index offset : Nat} {value : UInt8}
    (stepped : mappingNext crates world (.store index offset value) = some target) :
    MappingStep crates initial world (.store index offset value) target := by
  rw [mappingNext] at stepped
  split at stepped
  · next mapping found =>
      obtain ⟨inside, stepped⟩ := Option.ite_none_right_eq_some.mp stepped
      obtain ⟨after, stored, rfl⟩ := Option.map_eq_some_iff.mp stepped
      obtain ⟨sameBase, sameSize, isMapped, isAfter⟩ := userStore_eq_some stored
      have covers : mapping.place.Covers (mapping.range.start + offset) :=
        ⟨Nat.le_add_right _ _, Nat.add_lt_add_left inside _⟩
      have touches := sound.touches_of_held found covers
      constructor
      · apply sound.setBytes sameBase sameSize
        · intro asked
          rw [isAfter]
          by_cases same : asked = mapping.range.start + offset
          · rw [same, Function.update_self]
            exact ((AddrSpace.isSome_byteAt _).mpr isMapped).symm
          · rw [Function.update_of_ne same]
        · intro asked was
          rw [isAfter]
          apply Function.update_of_ne
          rintro rfl
          exact (sound.isMapped_of_touches found touches).2 was
      · obtain ⟨contents, read, length⟩ := sound.exists_read found
        have place := MappingWorld.getElem?_places found
        have put :
            (Blocks.machine UInt8).next world.blocks (.put index offset value) =
              some (world.blocks.set index (some (contents.set offset value))) :=
          Blocks.next_put (getElem?_blocksAt place read) (length ▸ inside)
        have seen :
            blocksAt
                (Function.update world.aspace.byteAt (mapping.range.start + offset) (some value))
                world.places =
              world.blocks.set index (some (contents.set offset value)) := by
          refine blocksAt_update place read inside ?_
          intro asked other askedFound otherCovers
          obtain ⟨otherMapping, otherFound, rfl⟩ := MappingWorld.exists_held_of_places askedFound
          exact sound.eq_of_touches otherFound found
            (sound.touches_of_held otherFound otherCovers) touches
        rw [blockActions, Machine.exec_cons]
        rw [put, Option.bind_some, Machine.exec_nil, ← seen, ← isAfter]
        rfl
  · cases stepped

theorem mapping_step {action : MappingAction}
    (stepped : mappingNext crates world action = some target) :
    MappingStep crates initial world action target := by
  cases action with
  | mmap files request => exact mapping_step_mmap ordinary sound stepped
  | munmap index => exact mapping_step_munmap ordinary sound stepped
  | mprotect addr length prot =>
      exact mapping_step_mprotect ordinary sound stepped
  | store index offset value =>
      exact mapping_step_store sound stepped

end Steps

theorem MappingsSound.of_reachable (ordinary : crates.Ordinary)
    (reached : (mappingMachine crates initial).Reachable world) :
    MappingsSound initial world := by
  apply Machine.Reachable.invariant _ _ reached
  · rintro start rfl
    exact MappingsSound.fresh initial
  · intro source action target _ sound stepped
    exact (mapping_step ordinary sound stepped).sound

theorem mapping_simulates (ordinary : crates.Ordinary) :
    (mappingMachine crates initial).Simulates (Blocks.machine UInt8)
      MappingWorld.blocks (blockActions crates) where
  next _ _ _ reached stepped :=
    (mapping_step ordinary (.of_reachable ordinary reached) stepped).seen

end Runs

/-! ## What is lost -/

def MappingAction.Clean (crates : MmapCrates) : MappingAction → Prop
  | .mmap files request =>
      request.HintFits ∧
        (request.populate = true → ∃ buf, fileBytes (crates.withFiles files) request = .ok buf)
  | _ => True

section Lost

variable {crates : ProtectCrates} {initial : AddrSpace} {world target : MappingWorld}

structure NothingLost (world : MappingWorld) : Prop where
  lost : world.lost = []
  fits : ∀ mapping, some mapping ∈ world.held → mapping.request.HintFits

theorem Mapping.remainder_eq_nil {mapping : Mapping} {rounded : Nat}
    (up : alignUp4k mapping.request.length = some rounded)
    (same : mapping.range.size = rounded) :
    mapping.remainder = [] := by
  unfold Mapping.remainder
  simp only [up]
  exact if_neg (by omega)

theorem NothingLost.step (ordinary : crates.Ordinary) (sound : MappingsSound initial world)
    (nothing : NothingLost world) {action : MappingAction}
    (clean : action.Clean crates.toMmapCrates)
    (stepped : mappingNext crates world action = some target) :
    NothingLost target := by
  cases action with
  | mmap files request =>
      obtain ⟨hintFits, readable⟩ := clean
      obtain ⟨movable, stepped⟩ := Option.ite_none_right_eq_some.mp stepped
      split at stepped
      · obtain rfl := Option.some.inj stepped
        refine ⟨nothing.lost, ?_⟩
        intro mapping member
        rcases List.mem_append.mp member with old | new
        · exact nothing.fits mapping old
        · obtain rfl := Option.some.inj (List.mem_singleton.mp new)
          exact hintFits
      · next error after failed =>
          obtain rfl := Option.some.inj stepped
          rcases sysMmap_refused (ordinary.documented.withFiles files)
              (ordinary.placing.withFiles files) movable failed with
            unchanged | ⟨range, -, -, populates, refusal, refused⟩
          · refine ⟨?_, nothing.fits⟩
            rw [unchanged.2, nothing.lost]
            rfl
          · obtain ⟨buf, read⟩ := readable populates
            rw [refused] at read
            cases read
      · cases stepped
  | munmap index =>
      rw [mappingNext] at stepped
      split at stepped
      · next mapping found =>
          have held := List.mem_of_getElem? found
          obtain ⟨rounded, up, whole, shorter, iffFits, removed⟩ := sound.munmap_held ordinary found
          rw [removed] at stepped
          obtain rfl := Option.some.inj stepped
          have same := iffFits.mpr (nothing.fits mapping held)
          refine ⟨?_, ?_⟩
          · rw [Mapping.remainder_eq_nil up same, nothing.lost]
            rfl
          · intro other member
            rcases List.mem_or_eq_of_mem_set member with old | new
            · exact nothing.fits other old
            · cases new
      · cases stepped
  | mprotect addr length prot =>
      rw [mappingNext] at stepped
      split at stepped
      · cases stepped
      · obtain rfl := Option.some.inj stepped
        exact ⟨nothing.lost, nothing.fits⟩
  | store index offset value =>
      rw [mappingNext] at stepped
      split at stepped
      · obtain ⟨-, stepped⟩ := Option.ite_none_right_eq_some.mp stepped
        obtain ⟨after, -, rfl⟩ := Option.map_eq_some_iff.mp stepped
        exact ⟨nothing.lost, nothing.fits⟩
      · cases stepped

theorem NothingLost.of_reachable (ordinary : crates.Ordinary)
    (reached : (mappingMachine crates initial).ReachableWithin
      (fun _ action => action.Clean crates.toMmapCrates) world) :
    NothingLost world := by
  have everywhere :
      MappingsSound initial world ∧ NothingLost world := by
    apply Machine.ReachableWithin.invariant _ _ reached
    · rintro start rfl
      refine ⟨MappingsSound.fresh initial, rfl, ?_⟩
      intro mapping member
      cases member
    · intro source action target _ both clean stepped
      exact
        ⟨(mapping_step ordinary both.1 stepped).sound, both.2.step ordinary both.1 clean stepped⟩
  exact everywhere.2

end Lost

/-- The mappings of a program are blocks of bytes that share nothing: every run
in which it asks for mappings of 4K pages at places the kernel chooses, gives
them back whole, changes permissions and stores in them is a run of an
allocator of separate blocks with the same bytes.  A mapped page was there
before the run, or belongs to one mapping, or is lost, and only one of these;
what was there before keeps its bytes, and every mapping can be given back.  If
all hints fit and all files can be read, nothing is lost. -/
theorem mappings_are_separate_blocks (crates : ProtectCrates) (ordinary : crates.Ordinary)
    (initial : AddrSpace) (actions : List MappingAction)
    (final : MappingWorld)
    (ran : (mappingMachine crates initial).exec (.fresh initial) actions = some final) :
    (Blocks.machine UInt8).exec []
        ((mappingMachine crates initial).trace (blockActions crates) (.fresh initial) actions) =
      some final.blocks ∧
    (∀ number, final.owners number + initial.share number = final.aspace.share number) ∧
    (∀ addr, initial.IsMapped (addr / pageSize4k) →
      final.aspace.byteAt addr = initial.byteAt addr) ∧
    (∀ index mapping, final.held[index]? = some (some mapping) →
      ∃ target, mappingNext crates final (.munmap index) = some target) ∧
    ((∀ action ∈ actions, action.Clean crates.toMmapCrates) → final.lost = []) := by
  have started : (mappingMachine crates initial).Reachable (.fresh initial) :=
    Machine.Reachable.start rfl
  have sound : MappingsSound initial final := .of_reachable ordinary (started.exec ran)
  refine ⟨(mapping_simulates ordinary).exec started ran, sound.owned, sound.kept, ?_, ?_⟩
  · intro index mapping found
    obtain ⟨rounded, -, -, -, -, removed⟩ := sound.munmap_held ordinary found
    have given :
        mappingNext crates final (.munmap index) =
          some
            ⟨final.aspace.withRange mapping.range.start rounded none, final.held.set index none,
              final.lost ++ mapping.remainder⟩ := by
      rw [mappingNext, found]
      simp only [removed]
    exact ⟨_, given⟩
  · intro allClean
    have startedClean :
        (mappingMachine crates initial).ReachableWithin
          (fun _ action => action.Clean crates.toMmapCrates)
          (.fresh initial) :=
      .start rfl
    have clean :
        (mappingMachine crates initial).Meets (fun _ action => action.Clean crates.toMmapCrates)
          (.fresh initial) actions :=
      Machine.meets_of_forall _ fun action member _ =>
        allClean action member
    exact (NothingLost.of_reachable ordinary (startedClean.exec clean ran)).lost

def ProtectCrates.placed : ProtectCrates :=
  { MmapCrates.placed with
    protect := fun aspace start size flags =>
      onPages (fun page => some { page with flags := flags }) aspace start size }

theorem ProtectCrates.placed_ordinary : placed.Ordinary where
  documented := MmapCrates.placed_documented
  placing := MmapCrates.placed_placing
  writes := MmapCrates.bytewise_writesRange
  writeStays aspace start pageSize data := by
    change
      (Axmm.storeBytes aspace start data).2.base = aspace.base ∧
        (Axmm.storeBytes aspace start data).2.size = aspace.size
    unfold Axmm.storeBytes
    split
    · exact ⟨rfl, rfl⟩
    · exact ⟨rfl, rfl⟩
  protectStays aspace start size flags := by
    simp only [placed, onPages]
    split
    · exact ⟨rfl, rfl, fun _ => rfl⟩
    · refine ⟨rfl, rfl, ?_⟩
      intro addr
      simp only [AddrSpace.byteAt]
      split
      · cases aspace.pages (addr / pageSize4k) with
        | none => rfl
        | some page => rfl
      · rfl

def writablePage (addr : Nat) : MmapRequest := { anonymousPage addr with prot := protWrite }

def twoPages : List MappingAction := [.mmap (fun _ => .error .EBADF) (writablePage 0x1000),
    .mmap (fun _ => .error .EBADF) (writablePage 0x3000),
    .store 0 5 7, .munmap 1]

theorem mappings_are_separate_blocks_two :
    ∃ final,
      (mappingMachine .placed freeSpace).exec (.fresh freeSpace) twoPages = some final ∧
        final.lost = [] ∧
        (Blocks.machine UInt8).exec []
            ((mappingMachine .placed freeSpace).trace
              (blockActions .placed) (.fresh freeSpace) twoPages) =
          some final.blocks := by
  have runs :
      ((mappingMachine .placed freeSpace).exec (.fresh freeSpace) twoPages).isSome = true := by
    decide +kernel
  obtain ⟨final, ran⟩ := Option.isSome_iff_exists.mp runs
  have separate :=
    mappings_are_separate_blocks .placed ProtectCrates.placed_ordinary freeSpace twoPages final ran
  refine ⟨final, ran, separate.2.2.2.2 ?_, separate.1⟩
  intro action member
  simp only [twoPages, List.mem_cons, List.not_mem_nil, or_false] at member
  rcases member with rfl | rfl | rfl | rfl
  · exact ⟨by decide, fun populates => by cases populates⟩
  · exact ⟨by decide, fun populates => by cases populates⟩
  · trivial
  · trivial

end Vegar.Mm

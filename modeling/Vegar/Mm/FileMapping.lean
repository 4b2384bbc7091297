import Vegar.Mm.ElfImage

/-!
# The bytes of a file mapping

The part of `sys_mmap` that reads a file.  `read_at` may deliver fewer bytes
than it was asked for and says how many; `sys_mmap` asks once and does not
look at the number, so what was not delivered reads as zeros.
-/

namespace Vegar.Mm

open Vegar.Lib

/-- A file whose `read_at` gives some of the bytes asked for, at least one
before the end of the file. -/
structure ShortFile where
  contents : List UInt8
  delivered : (offset length : Nat) → AxResult Nat
  bounded :
    ∀ offset length count, delivered offset length = .ok count →
      count ≤ min length (contents.length - offset)
  progress :
    ∀ offset length count, delivered offset length = .ok count →
      0 < length → offset < contents.length → 0 < count

namespace ShortFile

def buffer (file : ShortFile) (offset length count : Nat) :
    Vector UInt8 length :=
  Vector.ofFn fun index =>
    if index.val < count then (file.contents[offset + index.val]?).getD 0
    else 0

/-- What `sys_mmap` sees of the file: the number of bytes is dropped. -/
def toMmapFile (file : ShortFile) : MmapFile where
  attrSize := .ok file.contents.length
  readAt offset length := (file.delivered offset length).map fun count =>
      file.buffer offset length count

end ShortFile

/-- `write` changes exactly its range if that is mapped. -/
def MmapCrates.WritesRange (crates : MmapCrates) : Prop := ∀ aspace start pageSize data after,
    (∀ index < data.length, aspace.IsMapped ((start + index) / pageSize4k)) →
    crates.write aspace start pageSize data = (.ok (), after) →
      ∀ addr, after.byteAt addr =
        if start ≤ addr ∧ addr < start + data.length then data[addr - start]?
        else aspace.byteAt addr

def MmapRequest.shown (request : MmapRequest) (file : ShortFile) : Nat :=
  min request.length (file.contents.length - request.offset.toNat)

def ShowsFile (file : ShortFile) (request : MmapRequest) (found : Nat) (after : AddrSpace) : Prop :=
  ∀ start size, request.region = some (start, size) →
    ∀ index < size,
      after.byteAt (found + index) =
        some
          (if index < request.shown file then
            (file.contents[request.offset.toNat + index]?).getD 0
          else 0)

/-- The bytes that `read_at` leaves out are zero in the file. -/
def OmitsZeros (file : ShortFile) (request : MmapRequest) : Prop := ∀ count,
    file.delivered request.offset.toNat (request.shown file) = .ok count →
      ∀ index, count ≤ index → index < request.shown file →
        (file.contents[request.offset.toNat + index]?).getD 0 = 0

section Populate

variable {crates : MmapCrates} {request : MmapRequest} {aspace : AddrSpace} {file : ShortFile}

theorem sysMmap_populate_ok (documented : crates.Documented)
    (populates : request.populate = true) {found : Nat} {mapped : AddrSpace}
    (succeeded : (sysMmap crates request).runOn aspace = (.ok found, mapped)) :
    ∃ start size buf, request.region = some (start, size) ∧ fileBytes crates request = .ok buf ∧
      crates.write (aspace.withRange found size (some (freshPage (mappingFlags request.prot))))
          found request.pageSize buf =
        (.ok (), mapped) := by
  obtain ⟨size, between, ran, filled⟩ := sysMmap_ok documented succeeded
  obtain ⟨start, region, -⟩ := mmapTarget_ok ran
  cases read : fileBytes crates request with
  | error error =>
      simp only [fillFromFile, if_pos populates, read, AspaceM.ofResult,
        AspaceM.runOn_bind, AspaceM.runOn_throw] at filled
      cases (Prod.mk.inj filled).1
  | ok buf =>
      simp only [fillFromFile, if_pos populates, read, AspaceM.ofResult,
        AspaceM.runOn_bind, AspaceM.runOn_pure,
        AspaceM.runOn_mapErr_ofAxmm] at filled
      rcases wrote :
        crates.write (aspace.withRange found size (some (freshPage (mappingFlags request.prot))))
          found request.pageSize buf with ⟨error | written, after⟩
      · rw [wrote] at filled
        cases (Prod.mk.inj filled).1
      · rw [wrote] at filled
        rw [← (Prod.mk.inj filled).2]
        exact ⟨start, size, buf, region, rfl, wrote⟩

theorem fileBytes_of_shortFile (opened : crates.fileFromFd request.fd = .ok file.toMmapFile)
    {buf : List UInt8} (read : fileBytes crates request = .ok buf) :
    ∃ count, file.delivered request.offset.toNat (request.shown file) = .ok count ∧
      buf = (file.buffer request.offset.toNat (request.shown file) count).toList := by
  rw [fileBytes, opened] at read
  obtain ⟨inner, isInner, sized⟩ := bind_eq_ok_iff.mp read
  obtain rfl := Except.ok.inj isInner
  obtain ⟨fileSize, isSize, rest⟩ := bind_eq_ok_iff.mp sized
  obtain rfl := Except.ok.inj isSize
  split at rest
  · cases rest
  · obtain ⟨bytes, isRead, isBuf⟩ := bind_eq_ok_iff.mp rest
    change
      ((file.delivered request.offset.toNat (request.shown file)).map _).mapError _ = _ at isRead
    cases counted : file.delivered request.offset.toNat (request.shown file) with
    | error error =>
        rw [counted] at isRead
        cases isRead
    | ok count =>
        rw [counted] at isRead
        obtain rfl := Except.ok.inj isRead
        exact ⟨count, rfl, (Except.ok.inj isBuf).symm⟩

theorem getElem?_buffer {offset length count index : Nat} (inside : index < length) :
    (file.buffer offset length count).toList[index]? =
      some (if index < count then (file.contents[offset + index]?).getD 0
        else 0) := by
  rw [Vector.getElem?_toList, ShortFile.buffer, Vector.getElem?_ofFn, dif_pos inside]

theorem isMapped_of_fresh {found size index : Nat} {page : Page} (inside : index < size) :
    Touches found size ((found + index) / pageSize4k) ∧
      (aspace.withRange found size (some page)).IsMapped ((found + index) / pageSize4k) := by
  have touches : Touches found size ((found + index) / pageSize4k) := by
    unfold Touches
    simp only [pageSize4k]
    omega
  refine ⟨touches, ?_⟩
  rw [isMapped_withRange, if_pos touches]
  rfl

theorem byteAt_of_populated (writes : crates.WritesRange) {found size index : Nat}
    {flags : MappingFlags} {buf : List UInt8} {mapped : AddrSpace}
    (covered : buf.length ≤ size)
    (wrote :
      crates.write (aspace.withRange found size (some (freshPage flags)))
          found request.pageSize buf =
        (.ok (), mapped))
    (inside : index < size) :
    mapped.byteAt (found + index) =
      if index < buf.length then buf[index]? else some 0 := by
  have allMapped :
      ∀ asked < buf.length,
        (aspace.withRange found size (some (freshPage flags))).IsMapped
          ((found + asked) / pageSize4k) :=
    fun asked below =>
      (isMapped_of_fresh (Nat.lt_of_lt_of_le below covered)).2
  have touches := (@isMapped_of_fresh aspace found size index (freshPage flags) inside).1
  rw [writes _ _ _ _ _ allMapped wrote, AddrSpace.byteAt_withRange,
    if_pos touches, Nat.add_sub_cancel_left]
  by_cases below : index < buf.length
  · rw [if_pos (by omega), if_pos below]
  · rw [if_neg (by omega), if_neg below]

end Populate

/-- A mapping of a file that `sys_mmap` made shows the file exactly if the
bytes that `read_at` did not deliver are zeros. -/
theorem sysMmap_shows_file_iff (crates : MmapCrates) (documented : crates.Documented)
    (writes : crates.WritesRange) (file : ShortFile) (request : MmapRequest)
    (opened : crates.fileFromFd request.fd = .ok file.toMmapFile)
    (populates : request.populate = true) (aspace : AddrSpace)
    (found : Nat) (mapped : AddrSpace)
    (succeeded : (sysMmap crates request).runOn aspace = (.ok found, mapped)) :
    ShowsFile file request found mapped ↔ OmitsZeros file request := by
  obtain ⟨start, size, buf, region, read, wrote⟩ :=
    sysMmap_populate_ok documented populates succeeded
  obtain ⟨count, counted, rfl⟩ := fileBytes_of_shortFile opened read
  have bufLength :
      (file.buffer request.offset.toNat (request.shown file)
        count).toList.length = request.shown file :=
    Vector.length_toList
  have shownFits : request.shown file ≤ size :=
    (Nat.min_le_left _ _).trans (MmapRequest.length_le_of_region region)
  have byteAt {index : Nat} (inside : index < size) :
      mapped.byteAt (found + index) =
        if index < request.shown file then
          some
            (if index < count then
              (file.contents[request.offset.toNat + index]?).getD 0
            else 0)
        else some 0 := by
    rw [byteAt_of_populated writes (bufLength.trans_le shownFits) wrote inside, bufLength]
    by_cases below : index < request.shown file
    · rw [if_pos below, if_pos below, getElem?_buffer below]
    · rw [if_neg below, if_neg below]
  constructor
  · intro shows asked isCount index omitted below
    obtain rfl := Except.ok.inj (counted.symm.trans isCount)
    have inside := Nat.lt_of_lt_of_le below shownFits
    have same := shows start size region index inside
    rw [byteAt inside, if_pos below, if_pos below, if_neg (Nat.not_lt.mpr omitted)] at same
    exact (Option.some.inj same).symm
  · intro omits otherStart otherSize otherRegion index insideOther
    have sameSize : size = otherSize :=
      (Prod.mk.inj (Option.some.inj (region.symm.trans otherRegion))).2
    rw [byteAt (sameSize ▸ insideOther)]
    by_cases below : index < request.shown file
    · rw [if_pos below, if_pos below]
      by_cases isDelivered : index < count
      · rw [if_pos isDelivered]
      · rw [if_neg isDelivered, omits count counted index (Nat.le_of_not_lt isDelivered) below]
    · rw [if_neg below, if_neg below]

def bytewiseFile : ShortFile where
  contents := [1, 2]
  delivered offset length := .ok (min (min length 1) (2 - offset))
  bounded offset length count counted := by
    rw [← Except.ok.inj counted]
    simp only [List.length_cons, List.length_nil]
    omega
  progress offset length count counted asked before := by
    rw [← Except.ok.inj counted]
    simp only [List.length_cons, List.length_nil] at before
    omega

def MmapCrates.bytewise : MmapCrates :=
  { MmapCrates.placed with
    fileFromFd := fun _ => .ok bytewiseFile.toMmapFile }

theorem MmapCrates.bytewise_documented : bytewise.Documented where
  unmapFails := reference_documented.unmapFails
  unmapRemoves := reference_documented.unmapRemoves
  mapFails := reference_documented.mapFails
  mapMaps := reference_documented.mapMaps
  writesMapped := reference_documented.writesMapped

theorem MmapCrates.bytewise_writesRange : bytewise.WritesRange := by
  intro aspace start pageSize data after allMapped wrote addr
  have isAfter : (Axmm.storeBytes aspace start data).2 = after := (Prod.mk.inj wrote).2
  rcases stored : Axmm.storeBytes aspace start data with ⟨error | _, changed⟩
  · have unchanged : changed = aspace := by
      unfold Axmm.storeBytes at stored
      split at stored
      · cases (Prod.mk.inj stored).1
      · exact (Prod.mk.inj stored).2.symm
    have empty : data.length = 0 := by
      by_contra nonempty
      have first := allMapped 0 (Nat.pos_of_ne_zero nonempty)
      rw [Nat.add_zero] at first
      have isStored : (Axmm.storeBytes aspace start data).1 = .ok () := by
        unfold Axmm.storeBytes
        rw [if_pos (pageNumbers_mapped first allMapped)]
      rw [stored] at isStored
      cases isStored
    rw [← isAfter, stored, unchanged, if_neg (by omega)]
  · rw [stored] at isAfter
    rw [← isAfter]
    exact byteAt_storeBytes allMapped stored addr

def bytewiseRequest (offset : Int) : MmapRequest where
  addr := 0x1000
  length := 0x1000
  prot := protRead
  flags := MmapFlags.priv
  fd := 3
  offset := offset

/-- The last byte of the file alone is delivered. -/
theorem sysMmap_shows_file_iff_lastByte :
    ∃ mapped,
      (sysMmap .bytewise (bytewiseRequest 1)).runOn freeSpace = (.ok 0x1000, mapped) ∧
        ShowsFile bytewiseFile (bytewiseRequest 1) 0x1000 mapped := by
  have placed : ((sysMmap .bytewise (bytewiseRequest 1)).runOn freeSpace).1 = .ok 0x1000 := by
    decide +kernel
  have succeeded :
      (sysMmap .bytewise (bytewiseRequest 1)).runOn freeSpace =
        (.ok 0x1000, ((sysMmap .bytewise (bytewiseRequest 1)).runOn freeSpace).2) :=
    Prod.ext placed rfl
  refine ⟨_, succeeded, ?_⟩
  refine (sysMmap_shows_file_iff .bytewise MmapCrates.bytewise_documented
      MmapCrates.bytewise_writesRange bytewiseFile (bytewiseRequest 1) rfl
      (by decide) freeSpace 0x1000 _ succeeded).mpr ?_
  intro count counted index omitted below
  have allDelivered : 1 = count := Except.ok.inj counted
  have oneByte : index < 1 := below
  omega

/-- The second byte of the file reads as zero. -/
theorem sysMmap_short_read_zeros :
    let run := (sysMmap .bytewise (bytewiseRequest 0)).runOn freeSpace
    run.1 = .ok 0x1000 ∧ run.2.byteAt 0x1001 = some 0 ∧
      ¬ ShowsFile bytewiseFile (bytewiseRequest 0) 0x1000 run.2 := by
  have placed : ((sysMmap .bytewise (bytewiseRequest 0)).runOn freeSpace).1 = .ok 0x1000 := by
    decide +kernel
  have second :
      ((sysMmap .bytewise (bytewiseRequest 0)).runOn freeSpace).2.byteAt 0x1001 = some 0 := by
    decide +kernel
  have region : (bytewiseRequest 0).region = some (0x1000, 0x1000) := by
    decide +kernel
  refine ⟨placed, second, ?_⟩
  intro shows
  have asInFile := shows 0x1000 0x1000 region 1 (by decide)
  rw [second] at asInFile
  exact absurd asInFile (by decide)

end Vegar.Mm

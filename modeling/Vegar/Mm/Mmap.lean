import Vegar.Mm.AddrSpace

/-!
# Mapping memory

`sys_mmap` of `api/src/imp/mm/mmap.rs`.  The range is unmapped and mapped
again before the descriptor, the offset and the file are looked at, and
nothing is put back when one of them is refused.
-/

namespace Vegar.Mm

open Vegar.Lib

/-! ## The call -/

/-- The bits of `MmapProt` that `MappingFlags` depend on. -/
def protRead : BitVec 32 := 0x1
def protWrite : BitVec 32 := 0x2
def protExec : BitVec 32 := 0x4

/-- The conversion of `MmapProt` to `MappingFlags`. -/
def mappingFlags (prot : BitVec 32) : MappingFlags where
  read := prot &&& protRead == protRead
  write := prot &&& protWrite == protWrite
  execute := prot &&& protExec == protExec
  user := true

/-- `MmapFlags`. -/
structure MmapFlags where
  bits : BitVec 32
  deriving DecidableEq, Repr

namespace MmapFlags

def shared : BitVec 32 := 0x01
def priv : BitVec 32 := 0x02
def fixed : BitVec 32 := 0x10
def anonymous : BitVec 32 := 0x20
def noreserve : BitVec 32 := 0x4000
def stack : BitVec 32 := 0x20000
def huge : BitVec 32 := 0x40000
def huge1gb : BitVec 32 := huge ||| 0x78000000

def all : BitVec 32 :=
  shared ||| priv ||| fixed ||| anonymous ||| noreserve ||| stack ||| huge ||| huge1gb

def fromBitsTruncate (bits : BitVec 32) : MmapFlags := ⟨bits &&& all⟩

def contains (flags : MmapFlags) (wanted : BitVec 32) : Bool := flags.bits &&& wanted == wanted

end MmapFlags

/-- `axhal::paging::PageSize`. -/
inductive PageSize where
  | size4K
  | size2M
  | size1G
  deriving DecidableEq, Repr

def PageSize.bytes : PageSize → Nat
  | .size4K => 0x1000
  | .size2M => 0x200000
  | .size1G => 0x40000000

def MmapFlags.pageSize (flags : MmapFlags) : PageSize :=
  if flags.contains huge1gb then .size1G
  else if flags.contains huge then .size2M
  else .size4K

/-- `align_down`. -/
def alignDown (addr : Nat) (align : PageSize) : Nat := addr - addr % align.bytes

/-- `align_up`: `(addr + align - 1) & !(align - 1)`, whose addition comes
first and may overflow. -/
def alignUp (addr : Nat) (align : PageSize) : Option Nat :=
  (usizeAdd addr align.bytes).map fun sum => alignDown (sum - 1) align

/-- An open `axfs::fops::File`: `get_attr` with `size`, and `read_at`, which
gives the buffer of the given length back. -/
structure MmapFile where
  attrSize : AxResult Nat
  readAt : (offset length : Nat) → AxResult (Vector UInt8 length)

/-- The code behind `sys_mmap` in other crates, and `File::from_fd`. -/
structure MmapCrates where
  linuxError : AxError → LinuxError
  unmap : AddrSpace → (start size : Nat) → AxResult Unit × AddrSpace
  findFreeArea : AddrSpace → (hint size lower upper : Nat) → PageSize → Option Nat
  mapAlloc :
    AddrSpace → (start size : Nat) → MappingFlags → (populate : Bool) →
      PageSize → AxResult Unit × AddrSpace
  write : AddrSpace → (start : Nat) → PageSize → List UInt8 → AxResult Unit × AddrSpace
  fileFromFd : Int → LinuxResult MmapFile

/-- The arguments of `sys_mmap`. -/
structure MmapRequest where
  addr : Nat
  length : Nat
  prot : BitVec 32
  flags : BitVec 32
  fd : Int
  offset : Int

namespace MmapRequest

/-- `map_flags`. -/
def mapFlags (request : MmapRequest) : MmapFlags := .fromBitsTruncate request.flags

def pageSize (request : MmapRequest) : PageSize := request.mapFlags.pageSize

def region (request : MmapRequest) : Option (Nat × Nat) := do
  let start := alignDown request.addr request.pageSize
  let sum ← usizeAdd request.addr request.length
  let stop ← alignUp sum request.pageSize
  return (start, stop - start)

/-- `populate`: whether a file is read into the mapping. -/
def populate (request : MmapRequest) : Bool :=
  if request.fd = -1 then false
  else !request.mapFlags.contains MmapFlags.anonymous

end MmapRequest

section Call

variable (crates : MmapCrates) (request : MmapRequest)

def startAddr (start size : Nat) : AspaceM LinuxError Nat :=
  if request.mapFlags.contains MmapFlags.fixed then
    if start = 0 then throw (.err .EINVAL)
    else do
      AspaceM.mapErr crates.linuxError (AspaceM.ofAxmm fun aspace => crates.unmap aspace start size)
      return start
  else fun aspace =>
    let find := fun hint =>
      crates.findFreeArea aspace hint size aspace.base (aspace.base + aspace.size) request.pageSize
    match (find start).or (find aspace.base) with
    | some found => (.ok found, aspace)
    | none => (.error (.err .ENOMEM), aspace)

/-- `sys_mmap` up to the place of the mapping: its address and length. -/
def mmapTarget : AspaceM LinuxError (Nat × Nat) :=
  if request.mapFlags.contains (MmapFlags.priv ||| MmapFlags.shared) then
    throw (.err .EINVAL)
  else
    match request.region with
    | none => throw .panicked
    | some (start, size) => do
        let found ← startAddr crates request start size
        return (found, size)

def fileBytes : LinuxResult (List UInt8) := do
  let file ← crates.fileFromFd request.fd
  let fileSize ← file.attrSize.mapError crates.linuxError
  if request.offset < 0 ∨ fileSize ≤ request.offset.toNat then
    throw .EINVAL
  else
    let length := min request.length (fileSize - request.offset.toNat)
    let buf ← (file.readAt request.offset.toNat length).mapError crates.linuxError
    return buf.toList

/-- The part of `sys_mmap` that reads the file. -/
def fillFromFile (found : Nat) : AspaceM LinuxError Unit :=
  if request.populate then do
    let buf ← AspaceM.ofResult (fileBytes crates request)
    AspaceM.mapErr crates.linuxError (AspaceM.ofAxmm fun aspace =>
        crates.write aspace found request.pageSize buf)
  else return ()

/-- `map_alloc` as `sys_mmap` calls it. -/
def mapTarget (found size : Nat) (aspace : AddrSpace) :
    AxResult Unit × AddrSpace :=
  crates.mapAlloc aspace found size (mappingFlags request.prot) request.populate request.pageSize

/-- `sys_mmap`. -/
def sysMmap : AspaceM LinuxError Nat := do
  let (found, size) ← mmapTarget crates request
  AspaceM.mapErr crates.linuxError (AspaceM.ofAxmm (mapTarget crates request found size))
  fillFromFile crates request found
  return found

end Call

/-! ## Ranges of pages -/

def Touches (start size number : Nat) : Prop :=
  number * pageSize4k < start + size ∧ start < (number + 1) * pageSize4k

instance (start size number : Nat) : Decidable (Touches start size number) :=
  inferInstanceAs (Decidable (_ ∧ _))

variable {start size : Nat}

theorem Touches.mono {larger number : Nat} (touches : Touches start size number)
    (longer : size ≤ larger) : Touches start larger number :=
  ⟨Nat.lt_of_lt_of_le touches.1 (Nat.add_le_add_left longer start), touches.2⟩

/-- A page as `map_alloc` provides it. -/
def freshPage (flags : MappingFlags) : Page := ⟨flags, fun _ => 0⟩

namespace AddrSpace

def withRange (aspace : AddrSpace) (start size : Nat) (page : Option Page) :
    AddrSpace :=
  { aspace with
    pages := fun number =>
      if Touches start size number then page else aspace.pages number }

theorem withRange_withRange (aspace : AddrSpace) (start size : Nat) (first second : Option Page) :
    (aspace.withRange start size first).withRange start size second =
      aspace.withRange start size second := by
  unfold withRange
  congr 1
  funext number
  by_cases touches : Touches start size number
  · simp only [if_pos touches]
  · simp only [if_neg touches]

theorem withRange_eq_self_iff {aspace : AddrSpace} {page : Option Page} :
    aspace.withRange start size page = aspace ↔
      ∀ number, Touches start size number → aspace.pages number = page := by
  constructor
  · intro unchanged number touches
    rw [← unchanged]
    exact if_pos touches
  · intro already
    unfold withRange
    congr 1
    funext number
    by_cases touches : Touches start size number
    · rw [if_pos touches, already number touches]
    · rw [if_neg touches]

end AddrSpace

/-- The documented behaviour of `axmm`: a failing operation changes nothing, a
successful one changes exactly its range, and what is mapped can be
written. -/
structure MmapCrates.Documented (crates : MmapCrates) : Prop where
  unmapFails :
    ∀ aspace start size error after,
      crates.unmap aspace start size = (.error error, after) → after = aspace
  unmapRemoves :
    ∀ aspace start size after,
      crates.unmap aspace start size = (.ok (), after) → after = aspace.withRange start size none
  mapFails :
    ∀ aspace start size flags populate pageSize error after,
      crates.mapAlloc aspace start size flags populate pageSize = (.error error, after) →
        after = aspace
  mapMaps :
    ∀ aspace start size flags populate pageSize after,
      crates.mapAlloc aspace start size flags populate pageSize = (.ok (), after) →
        after = aspace.withRange start size (some (freshPage flags))
  writesMapped :
    ∀ aspace start pageSize data,
      (∀ number, Touches start data.length number → (aspace.pages number).isSome) →
        ∃ after, crates.write aspace start pageSize data = (.ok (), after)

/-! ## What a failure leaves behind -/

theorem le_alignUp {addr up : Nat} {align : PageSize} (aligned : alignUp addr align = some up) :
    addr ≤ up := by
  obtain ⟨sum, added, rfl⟩ := Option.map_eq_some_iff.mp aligned
  obtain ⟨-, rfl⟩ := usizeAdd_eq_some.mp added
  have positive : 0 < align.bytes := by cases align <;> decide
  have remainder := Nat.mod_lt (addr + align.bytes - 1) positive
  unfold alignDown
  omega

theorem MmapRequest.length_le_of_region {request : MmapRequest}
    (aligned : request.region = some (start, size)) :
    request.length ≤ size := by
  unfold region at aligned
  simp only [Option.bind_eq_bind, Option.bind_eq_some_iff,
    Option.pure_def, Option.some.injEq, Prod.mk.injEq] at aligned
  obtain ⟨sum, added, stop, up, rfl, rfl⟩ := aligned
  obtain ⟨-, rfl⟩ := usizeAdd_eq_some.mp added
  have covered := le_alignUp up
  have below : alignDown request.addr request.pageSize ≤ request.addr := Nat.sub_le _ _
  omega

section Failure

variable {crates : MmapCrates} {request : MmapRequest} {aspace : AddrSpace}

/-- The address space when `map_alloc` is called: a fixed range is unmapped. -/
def cleared (request : MmapRequest) (aspace : AddrSpace) (found size : Nat) : AddrSpace :=
  if request.mapFlags.contains MmapFlags.fixed
  then aspace.withRange found size none else aspace

theorem startAddr_spec (documented : crates.Documented) (start size : Nat) :
    match (startAddr crates request start size).runOn aspace with
    | (.error _, after) => after = aspace
    | (.ok found, between) =>
        between = cleared request aspace found size := by
  unfold startAddr cleared
  by_cases fixed : request.mapFlags.contains MmapFlags.fixed = true
  · simp only [if_pos fixed]
    by_cases zero : start = 0
    · simp only [if_pos zero, AspaceM.runOn_throw]
    · simp only [if_neg zero, AspaceM.runOn_bind, AspaceM.runOn_mapErr_ofAxmm]
      cases removed : crates.unmap aspace start size with
      | mk result after =>
          cases result with
          | error error =>
              exact documented.unmapFails _ _ _ _ _ removed
          | ok done =>
              exact documented.unmapRemoves _ _ _ _ removed
  · simp only [if_neg fixed, AspaceM.runOn, StateT.run, ExceptT.run]
    split
    · next ran =>
        split at ran
        · cases (Prod.mk.inj ran).1
        · exact (Prod.mk.inj ran).2.symm
    · next ran =>
        split at ran
        · exact (Prod.mk.inj ran).2.symm
        · cases (Prod.mk.inj ran).1

variable {found : Nat} {between : AddrSpace}

theorem mmapTarget_ok
    (ran : (mmapTarget crates request).runOn aspace = (.ok (found, size), between)) :
    ∃ start, request.region = some (start, size) ∧
      (startAddr crates request start size).runOn aspace = (.ok found, between) := by
  unfold mmapTarget at ran
  split at ran
  · cases (Prod.mk.inj ran).1
  · split at ran
    · cases (Prod.mk.inj ran).1
    · next start asked aligned =>
        rw [AspaceM.runOn_bind] at ran
        split at ran
        · next place stays chosen =>
            obtain ⟨isTarget, rfl⟩ := Prod.mk.inj ran
            obtain ⟨rfl, rfl⟩ := Prod.mk.inj (Except.ok.inj isTarget)
            exact ⟨start, aligned, chosen⟩
        · cases (Prod.mk.inj ran).1

theorem mmapTarget_spec (documented : crates.Documented) :
    match (mmapTarget crates request).runOn aspace with
    | (.error _, after) => after = aspace
    | (.ok (found, size), between) =>
        request.length ≤ size ∧
        between = cleared request aspace found size := by
  unfold mmapTarget
  by_cases both : request.mapFlags.contains (MmapFlags.priv ||| MmapFlags.shared) = true
  · simp only [if_pos both, AspaceM.runOn_throw]
  · simp only [if_neg both]
    cases aligned : request.region with
    | none =>
        simp only [AspaceM.runOn_throw]
    | some region =>
        obtain ⟨start, size⟩ := region
        have placed := @startAddr_spec crates request aspace documented start size
        simp only [AspaceM.runOn_bind]
        cases ran : (startAddr crates request start size).runOn aspace with
        | mk result after =>
            rw [ran] at placed
            cases result with
            | error fault =>
                exact placed
            | ok found =>
                exact ⟨MmapRequest.length_le_of_region aligned, placed⟩

theorem length_le_of_fileBytes {buf : List UInt8} (read : fileBytes crates request = .ok buf) :
    buf.length ≤ request.length := by
  obtain ⟨file, -, read⟩ := bind_eq_ok_iff.mp read
  obtain ⟨fileSize, -, read⟩ := bind_eq_ok_iff.mp read
  split at read
  · cases read
  · obtain ⟨bytes, -, read⟩ := bind_eq_ok_iff.mp read
    obtain rfl := Except.ok.inj read
    rw [Vector.length_toList]
    exact Nat.min_le_left _ _

theorem fillFromFile_spec (documented : crates.Documented) {found size : Nat}
    (covered : request.length ≤ size)
    (mapped : ∀ number, Touches found size number → (aspace.pages number).isSome) :
    (∃ error, request.populate = true ∧ fileBytes crates request = .error error ∧
      (fillFromFile crates request found).runOn aspace = (.error (.err error), aspace)) ∨
    ((request.populate = true → ∃ buf, fileBytes crates request = .ok buf) ∧
      ∃ after, (fillFromFile crates request found).runOn aspace = (.ok (), after)) := by
  unfold fillFromFile
  by_cases populates : request.populate = true
  · simp only [if_pos populates, AspaceM.runOn_bind, AspaceM.runOn_mapErr_ofAxmm]
    cases read : fileBytes crates request with
    | error error =>
        exact Or.inl ⟨error, populates, rfl, rfl⟩
    | ok buf =>
        obtain ⟨after, written⟩ :=
          documented.writesMapped aspace found request.pageSize buf fun number touches =>
              mapped number (touches.mono ((length_le_of_fileBytes read).trans covered))
        refine Or.inr ⟨fun _ => ⟨buf, rfl⟩, after, ?_⟩
        simp only [AspaceM.ofResult, AspaceM.runOn_pure, written]
        rfl
  · simp only [if_neg populates]
    exact Or.inr ⟨fun yes => (populates yes).elim, aspace, rfl⟩

/-- What a failure would leave of a range was there before: where `map_alloc`
fails after a fixed range is unmapped, the range had nothing mapped; where
the file is refused, the range was mapped as `map_alloc` maps it. -/
def UnharmedRange (crates : MmapCrates) (request : MmapRequest)
    (aspace : AddrSpace) (found size : Nat) (between : AddrSpace) : Prop :=
  (request.mapFlags.contains MmapFlags.fixed = true →
    (mapTarget crates request found size between).1 ≠ .ok () →
    ∀ number, Touches found size number → aspace.pages number = none) ∧
  ((mapTarget crates request found size between).1 = .ok () → request.populate = true →
    (∃ error, fileBytes crates request = .error error) →
    ∀ number, Touches found size number →
      aspace.pages number = some (freshPage (mappingFlags request.prot)))

def UnharmedByFailure (crates : MmapCrates) (request : MmapRequest) (aspace : AddrSpace) : Prop :=
  ∀ found size between, (mmapTarget crates request).runOn aspace = (.ok (found, size), between) →
    UnharmedRange crates request aspace found size between

theorem mapTarget_ok (documented : crates.Documented) {mapped : AddrSpace}
    (placed : between = cleared request aspace found size)
    (succeeded : mapTarget crates request found size between = (.ok (), mapped)) :
    mapped = aspace.withRange found size (some (freshPage (mappingFlags request.prot))) := by
  rw [documented.mapMaps _ _ _ _ _ _ _ succeeded, placed, cleared]
  split
  · exact aspace.withRange_withRange found size _ _
  · rfl

theorem isSome_of_withRange {number : Nat} {page : Page} (touches : Touches start size number) :
    ((aspace.withRange start size (some page)).pages number).isSome := by
  unfold AddrSpace.withRange
  simp only [if_pos touches, Option.isSome_some]

theorem sysMmap_runOn
    (ran : (mmapTarget crates request).runOn aspace = (.ok (found, size), between)) :
    (sysMmap crates request).runOn aspace =
      match mapTarget crates request found size between with
      | (.error error, after) =>
          (.error (.err (crates.linuxError error)), after)
      | (.ok _, mapped) =>
          match (fillFromFile crates request found).runOn mapped with
          | (.ok _, after) => (.ok found, after)
          | (.error fault, after) => (.error fault, after) := by
  unfold sysMmap
  simp only [AspaceM.runOn_bind, ran, AspaceM.runOn_mapErr_ofAxmm]
  rcases mapTarget crates request found size between with ⟨_ | _, mapped⟩
  · rfl
  · simp only [Except.mapError]
    rcases (fillFromFile crates request found).runOn mapped with ⟨_ | _, after⟩ <;> rfl

theorem sysMmap_ok (documented : crates.Documented) {final : AddrSpace}
    (succeeded : (sysMmap crates request).runOn aspace = (.ok found, final)) :
    ∃ size between,
      (mmapTarget crates request).runOn aspace = (.ok (found, size), between) ∧
        (fillFromFile crates request found).runOn
            (aspace.withRange found size (some (freshPage (mappingFlags request.prot)))) =
          (.ok (), final) := by
  have spec := @mmapTarget_spec crates request aspace documented
  cases ran : (mmapTarget crates request).runOn aspace with
  | mk result between =>
  rw [ran] at spec
  cases result with
  | error fault =>
      rw [sysMmap, AspaceM.runOn_bind, ran] at succeeded
      cases (Prod.mk.inj succeeded).1
  | ok target =>
      obtain ⟨place, size⟩ := target
      rw [sysMmap_runOn ran] at succeeded
      cases mappedAs : mapTarget crates request place size between with
      | mk result middle =>
      rw [mappedAs] at succeeded
      cases result with
      | error error => cases (Prod.mk.inj succeeded).1
      | ok done =>
          have isMapped := mapTarget_ok documented spec.2 mappedAs
          dsimp only at succeeded
          cases filled : (fillFromFile crates request place).runOn middle with
          | mk result after =>
          rw [filled] at succeeded
          cases result with
          | error fault => cases (Prod.mk.inj succeeded).1
          | ok done =>
              obtain ⟨isPlace, rfl⟩ := Prod.mk.inj succeeded
              obtain rfl := Except.ok.inj isPlace
              rw [isMapped] at filled
              exact ⟨size, between, rfl, filled⟩

theorem unharmedByFailure_iff
    (ran : (mmapTarget crates request).runOn aspace = (.ok (found, size), between)) :
    UnharmedByFailure crates request aspace ↔
      UnharmedRange crates request aspace found size between := by
  unfold UnharmedByFailure
  rw [ran]
  constructor
  · intro unharmed
    exact unharmed found size between rfl
  · rintro unharmed asked length state ⟨⟩
    exact unharmed

theorem keeps_iff_of_map_fails (documented : crates.Documented)
    {after : AddrSpace} {error : AxError}
    (placed : between = cleared request aspace found size)
    (failed : mapTarget crates request found size between = (.error error, after)) :
    after = aspace ↔
      UnharmedRange crates request aspace found size between := by
  rw [UnharmedRange, failed, documented.mapFails _ _ _ _ _ _ _ _ failed, placed, cleared]
  by_cases fixed : request.mapFlags.contains MmapFlags.fixed = true
  · simp [fixed, AddrSpace.withRange_eq_self_iff]
  · simp [fixed]

theorem keeps_iff_of_map_succeeds (documented : crates.Documented)
    {mapped : AddrSpace} (covered : request.length ≤ size)
    (placed : between = cleared request aspace found size)
    (succeeded : mapTarget crates request found size between = (.ok (), mapped)) :
    (∀ error after,
      (fillFromFile crates request found).runOn mapped =
        (.error (.err error), after) → after = aspace) ↔
      UnharmedRange crates request aspace found size between := by
  have isMapped := mapTarget_ok documented placed succeeded
  have filled :=
    @fillFromFile_spec crates request mapped documented found size covered fun number touches => by
        rw [isMapped]
        exact isSome_of_withRange touches
  rw [UnharmedRange, succeeded]
  obtain ⟨error, populates, refused, failed⟩ | ⟨read, after, done⟩ := filled
  · rw [failed, isMapped]
    simp [refused, populates, AddrSpace.withRange_eq_self_iff]
  · rw [done]
    refine iff_of_true nofun ⟨fun _ moved => (moved rfl).elim, ?_⟩
    rintro - populates ⟨error, refused⟩
    obtain ⟨buf, isRead⟩ := read populates
    rw [refused] at isRead
    cases isRead

end Failure

/-- A failing `sys_mmap` leaves the address space as it was exactly when it
finds there what it would leave behind. -/
theorem sysMmap_failure_keeps_iff (crates : MmapCrates) (documented : crates.Documented)
    (request : MmapRequest) (aspace : AddrSpace) :
    (∀ error after,
      (sysMmap crates request).runOn aspace = (.error (.err error), after) → after = aspace) ↔
      UnharmedByFailure crates request aspace := by
  have placed := @mmapTarget_spec crates request aspace documented
  cases ran : (mmapTarget crates request).runOn aspace with
  | mk result between =>
  rw [ran] at placed
  cases result with
  | error fault =>
      obtain rfl : between = aspace := placed
      have failed : (sysMmap crates request).runOn between = (.error fault, between) := by
        unfold sysMmap
        rw [AspaceM.runOn_bind, ran]
      rw [failed, UnharmedByFailure, ran]
      simp
  | ok target =>
      obtain ⟨found, size⟩ := target
      obtain ⟨covered, isBetween⟩ := placed
      rw [unharmedByFailure_iff ran, sysMmap_runOn ran]
      cases mappedAs : mapTarget crates request found size between with
      | mk result mapped =>
      cases result with
      | error error =>
          rw [← keeps_iff_of_map_fails documented isBetween mappedAs]
          simp
      | ok done =>
          rw [← keeps_iff_of_map_succeeds documented covered isBetween mappedAs]
          simp only
          rcases (fillFromFile crates request found).runOn mapped with ⟨_ | _, after⟩
          · simp
          · exact iff_of_true nofun nofun

def MmapCrates.reference : MmapCrates where
  linuxError := MmCrates.reference.linuxError
  unmap aspace start size :=
    if start < aspace.base ∨ aspace.base + aspace.size < start + size then
      (.error .InvalidInput, aspace)
    else (.ok (), aspace.withRange start size none)
  findFreeArea aspace hint size lower upper _ :=
    if lower ≤ hint ∧ hint + size ≤ upper ∧ (Axmm.pageNumbers hint size).all fun number =>
          (aspace.pages number).isNone
    then some hint else none
  mapAlloc aspace start size flags _ _ :=
    if start < aspace.base ∨ aspace.base + aspace.size < start + size then
      (.error .InvalidInput, aspace)
    else if (Axmm.pageNumbers start size).any fun number =>
        (aspace.pages number).isSome then
      (.error .AlreadyExists, aspace)
    else
      (.ok (), aspace.withRange start size (some (freshPage flags)))
  write aspace start _ data := (.ok (), (Axmm.storeBytes aspace start data).2)
  fileFromFd _ := .error .EBADF

theorem MmapCrates.reference_documented : reference.Documented where
  unmapFails aspace start size error after failed := by
    simp only [reference] at failed
    split at failed
    · exact (Prod.mk.inj failed).2.symm
    · cases (Prod.mk.inj failed).1
  unmapRemoves aspace start size after succeeded := by
    simp only [reference] at succeeded
    split at succeeded
    · cases (Prod.mk.inj succeeded).1
    · exact (Prod.mk.inj succeeded).2.symm
  mapFails aspace start size flags populate pageSize error after failed := by
    simp only [reference] at failed
    split at failed
    · exact (Prod.mk.inj failed).2.symm
    · split at failed
      · exact (Prod.mk.inj failed).2.symm
      · cases (Prod.mk.inj failed).1
  mapMaps aspace start size flags populate pageSize after succeeded := by
    simp only [reference] at succeeded
    split at succeeded
    · cases (Prod.mk.inj succeeded).1
    · split at succeeded
      · cases (Prod.mk.inj succeeded).1
      · exact (Prod.mk.inj succeeded).2.symm
  writesMapped aspace start pageSize data _ := ⟨_, rfl⟩

def sevens : AddrSpace where
  base := 0x1000
  size := 0x10000
  pages number :=
    if number = 1 then some ⟨.userData, fun _ => 7⟩ else none

def fixedOverSevens : MmapRequest where
  addr := 0x1000
  length := 0x1000
  prot := protRead
  flags := MmapFlags.priv ||| MmapFlags.fixed
  fd := 5
  offset := 0

theorem sysMmap_failure_keeps_iff_sevens :
    (∀ error after,
      (sysMmap .reference fixedOverSevens).runOn sevens =
        (.error (.err error), after) → after = sevens) ↔
      UnharmedByFailure .reference fixedOverSevens sevens :=
  sysMmap_failure_keeps_iff .reference MmapCrates.reference_documented fixedOverSevens sevens

/-- A refused descriptor costs the caller the page that was mapped there: the
call fails, and the page reads as zeros. -/
theorem sysMmap_failure_destroys_mapping :
    ((sysMmap .reference fixedOverSevens).runOn sevens).1 = .error (.err .EBADF) ∧
      ¬ ∀ error after,
        (sysMmap .reference fixedOverSevens).runOn sevens =
          (.error (.err error), after) → after = sevens := by
  have refused : ((sysMmap .reference fixedOverSevens).runOn sevens).1 = .error (.err .EBADF) := by
    decide +kernel
  refine ⟨refused, fun keeps => ?_⟩
  have same :=
    keeps .EBADF ((sysMmap .reference fixedOverSevens).runOn sevens).2 (Prod.ext refused rfl)
  have lost :
      ((sysMmap .reference fixedOverSevens).runOn sevens).2.byteAt 0x1000 =
        some 0 := by
    decide +kernel
  have before : sevens.byteAt 0x1000 = some 7 := by decide +kernel
  rw [same, before] at lost
  exact absurd lost (by decide)

end Vegar.Mm

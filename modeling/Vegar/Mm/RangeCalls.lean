import Vegar.Mm.Munmap

/-!
# Ranges at the end of the numbers

`sys_munmap`, `sys_mprotect` and the range of `sys_mmap` in
`api/src/imp/mm/mmap.rs`.  All three round a number of the user up to whole
pages with a plain addition.  A call covers the range it was asked for exactly
if that addition does not overflow.
-/

namespace Vegar.Mm

open Vegar.Lib

def Meets (addr length number : Nat) : Prop :=
  ∃ byte, addr ≤ byte ∧ byte < addr + length ∧ byte / pageSize4k = number

theorem Meets.touches {addr length rounded number : Nat} (meets : Meets addr length number)
    (longer : length ≤ rounded) :
    0 < rounded ∧ Touches addr rounded number := by
  obtain ⟨byte, above, below, isPage⟩ := meets
  have remainder := Nat.mod_lt byte (show 0 < pageSize4k by decide)
  have whole := Nat.div_add_mod byte pageSize4k
  simp only [Touches, pageSize4k] at *
  omega

/-! ## `sys_mprotect` -/

def protGrowsdown : BitVec 32 := 0x01000000
def protGrowsup : BitVec 32 := 0x02000000

/-- `MmapProt::from_bits`, which refuses unknown bits. -/
def protFromBits (prot : BitVec 32) : Option (BitVec 32) :=
  if prot &&& ~~~(protRead ||| protWrite ||| protExec ||| protGrowsdown ||| protGrowsup) = 0 then
    some prot
  else none

theorem protFromBits_eq_some {prot permission : BitVec 32}
    (known : protFromBits prot = some permission) :
    permission = prot := by
  rw [protFromBits] at known
  split at known
  · exact (Option.some.inj known).symm
  · cases known

/-- The crates with `AddrSpace::protect`. -/
structure ProtectCrates extends MmapCrates where
  protect : AddrSpace → (start size : Nat) → MappingFlags → AxResult Unit × AddrSpace

/-- `sys_mprotect`. -/
def sysMprotect (crates : ProtectCrates) (addr length : Nat) (prot : BitVec 32) :
    AspaceM LinuxError Nat :=
  match protFromBits prot with
  | none => throw (.err .EINVAL)
  | some permission =>
      if permission &&& (protGrowsdown ||| protGrowsup) = protGrowsdown ||| protGrowsup then
        throw (.err .EINVAL)
      else
        match alignUp4k length with
        | none => throw .panicked
        | some length => do
            AspaceM.mapErr crates.linuxError (AspaceM.ofAxmm fun aspace =>
                crates.protect aspace addr length (mappingFlags permission))
            return 0

/-- The bits that `sys_mprotect` refuses. -/
def RefusedProt (prot : BitVec 32) : Prop := protFromBits prot = none ∨
    prot &&& (protGrowsdown ||| protGrowsup) = protGrowsdown ||| protGrowsup

/-- `unmap` and `protect` act on exactly the range given, which may be empty,
and fail outside the address space. -/
structure ProtectCrates.ActsOnRange (crates : ProtectCrates) : Prop where
  unmaps :
    ∀ aspace start size after,
      crates.unmap aspace start size = (.ok (), after) →
        ∀ number, after.pages number =
          if 0 < size ∧ Touches start size number then none
          else aspace.pages number
  unmapsInside :
    ∀ aspace start size,
      start < aspace.base ∨ aspace.base + aspace.size < start + size →
        ∃ error, (crates.unmap aspace start size).1 = .error error
  protects :
    ∀ aspace start size flags after,
      crates.protect aspace start size flags = (.ok (), after) →
        ∀ number, after.pages number =
          if 0 < size ∧ Touches start size number then
            (aspace.pages number).map fun page => { page with flags := flags }
          else aspace.pages number
  protectsInside :
    ∀ aspace start size flags,
      start < aspace.base ∨ aspace.base + aspace.size < start + size →
        ∃ error, (crates.protect aspace start size flags).1 = .error error

/-! ## Calls on a rounded range -/

def CoversRange (call : AspaceM LinuxError Nat) (aspace : AddrSpace) (addr length : Nat)
    (covered : AddrSpace → Nat → Prop) : Prop :=
  (call.runOn aspace).1 ≠ .error .panicked ∧
    ∀ value after, call.runOn aspace = (.ok value, after) →
      ∀ number, Meets addr length number → covered after number

/-- The common end of `sys_munmap` and `sys_mprotect`. -/
def onRoundedRange (convert : AxError → LinuxError)
    (operation : AddrSpace → (size : Nat) → AxResult Unit × AddrSpace)
    (length : Nat) : AspaceM LinuxError Nat :=
  match alignUp4k length with
  | none => throw .panicked
  | some length => do
      AspaceM.mapErr convert (AspaceM.ofAxmm fun aspace => operation aspace length)
      return 0

theorem le_alignUp4k {length rounded : Nat} (up : alignUp4k length = some rounded) :
    length ≤ rounded := by
  obtain ⟨sum, added, rfl⟩ := Option.map_eq_some_iff.mp up
  obtain ⟨-, rfl⟩ := usizeAdd_eq_some.mp added
  simp only [alignDown4k, pageSize4k]
  omega

theorem alignUp4k_eq_none_iff {length : Nat} :
    alignUp4k length = none ↔ usizeMax < length + pageSize4k := by
  rw [alignUp4k, Option.map_eq_none_iff, usizeAdd_eq_none]

theorem coversRange_onRoundedRange_iff {convert : AxError → LinuxError}
    {operation : AddrSpace → (size : Nat) → AxResult Unit × AddrSpace}
    {aspace : AddrSpace} {addr length : Nat}
    {covered : AddrSpace → Nat → Prop} :
    CoversRange (onRoundedRange convert operation length) aspace addr length covered ↔
      length + pageSize4k ≤ usizeMax ∧
        ∀ rounded after, alignUp4k length = some rounded →
          operation aspace rounded = (.ok (), after) →
            ∀ number, Meets addr length number → covered after number := by
  unfold onRoundedRange
  cases up : alignUp4k length with
  | none =>
      have overflows := alignUp4k_eq_none_iff.mp up
      constructor
      · intro covers
        exact (covers.1 rfl).elim
      · intro fits
        omega
  | some rounded =>
      have fits : ¬ usizeMax < length + pageSize4k := by
        rw [← alignUp4k_eq_none_iff, up]
        exact nofun
      have avoids :
          AspaceM.Avoids .panicked
            (AspaceM.mapErr convert (AspaceM.ofAxmm fun aspace => operation aspace rounded)) :=
        .mapErr_ofAxmm _ _ nofun
      constructor
      · intro covers
        refine ⟨Nat.le_of_not_lt fits, ?_⟩
        intro size after isSize ran number meets
        obtain rfl := Option.some.inj isSize
        refine covers.2 0 after ?_ number meets
        simp only [AspaceM.runOn_bind, AspaceM.runOn_mapErr_ofAxmm, ran]
        rfl
      · rintro ⟨-, acts⟩
        refine ⟨avoids.bind (fun _ => .pure 0) aspace, ?_⟩
        intro value after succeeded number meets
        simp only [AspaceM.runOn_bind, AspaceM.runOn_mapErr_ofAxmm] at succeeded
        rcases ran : operation aspace rounded with ⟨error | _, changed⟩
        · rw [ran] at succeeded
          cases (Prod.mk.inj succeeded).1
        · rw [ran] at succeeded
          rw [← (Prod.mk.inj succeeded).2]
          exact acts rounded changed rfl ran number meets

/-! ## The three calls -/

section Calls

variable {crates : ProtectCrates} {aspace : AddrSpace}

theorem sysMunmap_covers_iff (acts : crates.ActsOnRange) (addr length : Nat) :
    CoversRange (sysMunmap crates.toMmapCrates addr length) aspace addr
        length (fun after number => ¬ after.IsMapped number) ↔
      length + pageSize4k ≤ usizeMax := by
  have rounded :
      sysMunmap crates.toMmapCrates addr length =
        onRoundedRange crates.linuxError
          (fun aspace size => crates.unmap aspace addr size) length := by
    unfold sysMunmap onRoundedRange
    cases alignUp4k length <;> rfl
  rw [rounded, coversRange_onRoundedRange_iff, and_iff_left]
  intro size after up removed number meets isMapped
  rw [AddrSpace.IsMapped, acts.unmaps _ _ _ _ removed,
    if_pos (meets.touches (le_alignUp4k up))] at isMapped
  cases isMapped

def HasPermissions (prot : BitVec 32) (after : AddrSpace) (number : Nat) : Prop :=
  ∃ page, after.pages number = some page ∧ page.flags = mappingFlags prot

theorem sysMprotect_of_refused {prot : BitVec 32} (refused : RefusedProt prot) (addr length : Nat) :
    sysMprotect crates addr length prot = throw (.err .EINVAL) := by
  unfold sysMprotect
  cases known : protFromBits prot with
  | none => rfl
  | some permission =>
      have samePermission := protFromBits_eq_some known
      rcases refused with unknown | both
      · rw [unknown] at known
        cases known
      · simp only [samePermission, if_pos both]

theorem sysMprotect_of_accepted
    {prot : BitVec 32} (accepted : ¬ RefusedProt prot) (addr length : Nat) :
    sysMprotect crates addr length prot = onRoundedRange crates.linuxError (fun aspace size =>
          crates.protect aspace addr size (mappingFlags prot))
        length := by
  unfold sysMprotect onRoundedRange
  rw [RefusedProt, not_or] at accepted
  cases known : protFromBits prot with
  | none => exact (accepted.1 known).elim
  | some permission =>
      have samePermission := protFromBits_eq_some known
      simp only [samePermission, if_neg accepted.2]

/-- The bits are refused, or the length can be rounded up and either the range
has no hole or `axmm` refuses to change it. -/
def MprotectCovered (crates : ProtectCrates) (aspace : AddrSpace) (addr length : Nat)
    (prot : BitVec 32) : Prop :=
  RefusedProt prot ∨
    length + pageSize4k ≤ usizeMax ∧
      ((∀ number, Meets addr length number → aspace.IsMapped number) ∨
        ∃ rounded, alignUp4k length = some rounded ∧
          ∃ error, (crates.protect aspace addr rounded (mappingFlags prot)).1 = .error error)

theorem hasPermissions_protect_iff (acts : crates.ActsOnRange) {addr rounded number : Nat}
    {prot : BitVec 32} {after : AddrSpace}
    (changed : crates.protect aspace addr rounded (mappingFlags prot) = (.ok (), after))
    (touches : 0 < rounded ∧ Touches addr rounded number) :
    HasPermissions prot after number ↔ aspace.IsMapped number := by
  rw [HasPermissions, acts.protects _ _ _ _ _ changed, if_pos touches, AddrSpace.IsMapped]
  cases aspace.pages number with
  | none => simp
  | some page => simp

theorem sysMprotect_covers_iff (acts : crates.ActsOnRange) (addr length : Nat) (prot : BitVec 32) :
    CoversRange (sysMprotect crates addr length prot) aspace addr length (HasPermissions prot) ↔
      MprotectCovered crates aspace addr length prot := by
  unfold MprotectCovered
  by_cases refused : RefusedProt prot
  · rw [sysMprotect_of_refused refused]
    refine iff_of_true ⟨nofun, ?_⟩ (Or.inl refused)
    intro value after succeeded
    cases (Prod.mk.inj succeeded).1
  · rw [sysMprotect_of_accepted refused, or_iff_right refused, coversRange_onRoundedRange_iff]
    refine and_congr_right fun fits => ?_
    obtain ⟨rounded, up⟩ : ∃ rounded, alignUp4k length = some rounded := by
      apply Option.ne_none_iff_exists'.mp
      rw [Ne, alignUp4k_eq_none_iff]
      omega
    have touches := fun number (meets : Meets addr length number) =>
        meets.touches (le_alignUp4k up)
    simp only [up, Option.some.injEq, exists_eq_left']
    rcases ran : crates.protect aspace addr rounded (mappingFlags prot) with ⟨error | _, changed⟩
    · refine iff_of_true ?_ (Or.inr ⟨error, rfl⟩)
      rintro _ after rfl succeeded
      rw [ran] at succeeded
      cases (Prod.mk.inj succeeded).1
    · constructor
      · intro covered
        refine Or.inl fun number meets => ?_
        exact (hasPermissions_protect_iff acts ran (touches number meets)).mp
          (covered rounded changed rfl ran number meets)
      · rintro (mapped | ⟨error, failed⟩)
        · rintro _ after rfl same number meets
          obtain rfl := (Prod.mk.inj (ran.symm.trans same)).2
          exact
            (hasPermissions_protect_iff acts ran (touches number meets)).mpr (mapped number meets)
        · cases failed

end Calls

/-- The two numbers that `sys_mmap` computes of its range are numbers of 64
bits. -/
def MmapRequest.InRange (request : MmapRequest) : Prop := request.addr + request.length ≤ usizeMax ∧
    alignDown (request.addr + request.length + (request.pageSize.bytes - 1))
      request.pageSize ≤ usizeMax

def MmapInRange (crates : MmapCrates) (request : MmapRequest) (aspace : AddrSpace) :
    Prop :=
  ((sysMmap crates request).runOn aspace).1 ≠ .error .panicked ∧
    ∀ found after, (sysMmap crates request).runOn aspace = (.ok found, after) → request.InRange

section Mmap

variable {crates : MmapCrates} {request : MmapRequest} {aspace : AddrSpace}

theorem MmapRequest.region_eq_none_iff :
    request.region = none ↔
      usizeMax < request.addr + request.length + request.pageSize.bytes := by
  unfold region
  cases added : usizeAdd request.addr request.length with
  | none =>
      have overflows := usizeAdd_eq_none.mp added
      refine iff_of_true rfl ?_
      omega
  | some sum =>
      obtain ⟨-, rfl⟩ := usizeAdd_eq_some.mp added
      simp only [Option.bind_eq_bind, Option.bind_some, alignUp,
        Option.bind_eq_none_iff, Option.pure_def, reduceCtorEq, imp_false]
      rw [← Option.eq_none_iff_forall_ne_some, Option.map_eq_none_iff, usizeAdd_eq_none]

theorem startAddr_avoids_panic (start size : Nat) :
    AspaceM.Avoids .panicked (startAddr crates request start size) := by
  unfold startAddr
  split
  · split
    · exact .throw (Fault.panicked_ne_err _).symm
    · exact (AspaceM.Avoids.mapErr_ofAxmm _ _ Fault.panicked_ne_err).bind fun _ => .pure start
  · intro aspace panics
    simp only [AspaceM.runOn, StateT.run, ExceptT.run] at panics
    split at panics
    · cases panics
    · cases panics

theorem fillFromFile_avoids_panic (found : Nat) :
    AspaceM.Avoids .panicked (fillFromFile crates request found) := by
  unfold fillFromFile
  split
  · exact (AspaceM.Avoids.ofResult _ Fault.panicked_ne_err).bind
        fun _ => .mapErr_ofAxmm _ _ Fault.panicked_ne_err
  · exact .pure ()

theorem sysMmap_avoids_panic (target : AspaceM.Avoids .panicked (mmapTarget crates request)) :
    AspaceM.Avoids .panicked (sysMmap crates request) := by
  unfold sysMmap
  refine target.bind fun place => ?_
  refine (AspaceM.Avoids.mapErr_ofAxmm _ _ Fault.panicked_ne_err).bind fun _ => ?_
  exact (fillFromFile_avoids_panic place.1).bind fun _ => .pure place.1

theorem sysMmap_inRange_iff :
    MmapInRange crates request aspace ↔
      request.mapFlags.contains (MmapFlags.priv ||| MmapFlags.shared) = true ∨
        request.addr + request.length + request.pageSize.bytes ≤ usizeMax := by
  by_cases both : request.mapFlags.contains (MmapFlags.priv ||| MmapFlags.shared) = true
  · have refused : (sysMmap crates request).runOn aspace = (.error (.err .EINVAL), aspace) := by
      simp only [sysMmap, mmapTarget, if_pos both, AspaceM.runOn_bind, AspaceM.runOn_throw]
    refine iff_of_true ?_ (Or.inl both)
    rw [MmapInRange, refused]
    refine ⟨?_, ?_⟩
    · intro panics
      cases panics
    · intro found after succeeded
      cases (Prod.mk.inj succeeded).1
  · rw [or_iff_right both]
    cases aligned : request.region with
    | none =>
        have overflows := MmapRequest.region_eq_none_iff.mp aligned
        have panics : (sysMmap crates request).runOn aspace = (.error .panicked, aspace) := by
          simp only [sysMmap, mmapTarget, if_neg both, aligned,
            AspaceM.runOn_bind, AspaceM.runOn_throw]
        constructor
        · intro inRange
          rw [MmapInRange, panics] at inRange
          exact (inRange.1 rfl).elim
        · intro fits
          omega
    | some region =>
        have fits :
            ¬ usizeMax <
              request.addr + request.length + request.pageSize.bytes := by
          rw [← MmapRequest.region_eq_none_iff, aligned]
          exact Option.some_ne_none region
        have target : AspaceM.Avoids .panicked (mmapTarget crates request) := by
          unfold mmapTarget
          rw [if_neg both, aligned]
          exact (startAddr_avoids_panic _ _).bind fun _ => .pure _
        refine iff_of_true ⟨sysMmap_avoids_panic target aspace, ?_⟩ (Nat.le_of_not_lt fits)
        intro _ _ _
        unfold MmapRequest.InRange alignDown
        omega

end Mmap

/-- `sys_munmap` and `sys_mprotect` cover what was asked, and `sys_mmap` stays
inside the numbers, exactly if the rounding up to whole pages does not
overflow or the call is refused before.  `sys_mprotect` also succeeds on a
range with holes, whose pages have no permissions afterwards. -/
theorem ranges_covered_iff (crates : ProtectCrates) (acts : crates.ActsOnRange)
    (aspace : AddrSpace) :
    (∀ addr length,
      CoversRange (sysMunmap crates.toMmapCrates addr length) aspace addr
          length (fun after number => ¬ after.IsMapped number) ↔
        length + pageSize4k ≤ usizeMax) ∧
    (∀ addr length prot,
      CoversRange (sysMprotect crates addr length prot) aspace addr length (HasPermissions prot) ↔
        MprotectCovered crates aspace addr length prot) ∧
    ∀ request,
      MmapInRange crates.toMmapCrates request aspace ↔
        request.mapFlags.contains (MmapFlags.priv ||| MmapFlags.shared) = true ∨
          request.addr + request.length + request.pageSize.bytes ≤ usizeMax :=
  ⟨sysMunmap_covers_iff acts, sysMprotect_covers_iff acts, fun _ => sysMmap_inRange_iff⟩

def onPages (change : Page → Option Page) (aspace : AddrSpace) (start size : Nat) :
    AxResult Unit × AddrSpace :=
  if start < aspace.base ∨ aspace.base + aspace.size < start + size then
    (.error .InvalidInput, aspace)
  else
    (.ok (),
      { aspace with
        pages := fun number =>
          if 0 < size ∧ Touches start size number then
            (aspace.pages number).bind change
          else aspace.pages number })

def ProtectCrates.reference : ProtectCrates :=
  { MmapCrates.placed with
    unmap := onPages fun _ => none
    protect := fun aspace start size flags =>
      onPages (fun page => some { page with flags := flags }) aspace start size }

theorem onPages_ok {change : Page → Option Page} {aspace after : AddrSpace} {start size : Nat}
    (succeeded : onPages change aspace start size = (.ok (), after))
    (number : Nat) :
    after.pages number =
      if 0 < size ∧ Touches start size number then
        (aspace.pages number).bind change
      else aspace.pages number := by
  unfold onPages at succeeded
  split at succeeded
  · cases (Prod.mk.inj succeeded).1
  · rw [← (Prod.mk.inj succeeded).2]

theorem onPages_outside {change : Page → Option Page} {aspace : AddrSpace} {start size : Nat}
    (outside : start < aspace.base ∨ aspace.base + aspace.size < start + size) :
    ∃ error, (onPages change aspace start size).1 = .error error := by
  rw [onPages, if_pos outside]
  exact ⟨_, rfl⟩

theorem ProtectCrates.reference_acts : reference.ActsOnRange where
  unmaps aspace start size after removed number := by
    rw [onPages_ok removed, Option.bind_fun_none]
  unmapsInside _ _ _ outside := onPages_outside outside
  protects aspace start size flags after changed number := by
    rw [onPages_ok changed, Option.map_eq_bind]
    rfl
  protectsInside _ _ _ _ outside := onPages_outside outside

/-- One page is unmapped, and one made read only. -/
theorem ranges_covered_iff_sevens :
    CoversRange (sysMunmap ProtectCrates.reference.toMmapCrates 0x1000 0x1000)
        sevens 0x1000 0x1000 (fun after number => ¬ after.IsMapped number) ∧
      CoversRange (sysMprotect .reference 0x1000 0x1000 protRead) sevens
        0x1000 0x1000 (HasPermissions protRead) ∧
      MmapInRange ProtectCrates.reference.toMmapCrates fixedOverSevens
        sevens := by
  obtain ⟨munmap, mprotect, mmap⟩ :=
    ranges_covered_iff .reference ProtectCrates.reference_acts sevens
  have noHole : ∀ number, Meets 0x1000 0x1000 number → sevens.IsMapped number := by
    rintro number ⟨byte, above, below, rfl⟩
    have isFirst : byte / pageSize4k = 1 := by
      simp only [pageSize4k]
      omega
    rw [isFirst]
    exact (rfl : (sevens.pages 1).isSome = true)
  exact ⟨(munmap _ _).mpr (by decide), (mprotect _ _ _).mpr (Or.inr ⟨by decide, Or.inl noHole⟩),
      (mmap _).mpr (Or.inr (by decide))⟩

/-- A length in the last page of the numbers makes all three calls overflow. -/
theorem last_page_overflows :
    ((sysMunmap ProtectCrates.reference.toMmapCrates 0x1000
        usizeMax).runOn sevens).1 = .error .panicked ∧
      ((sysMprotect .reference 0x1000 usizeMax protRead).runOn sevens).1 = .error .panicked ∧
      ((sysMmap ProtectCrates.reference.toMmapCrates
          { fixedOverSevens with length := usizeMax }).runOn sevens).1 =
        .error .panicked := by
  decide +kernel

end Vegar.Mm

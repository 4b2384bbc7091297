import Vegar.Mm.Mmap

/-!
# Unmapping what was mapped

`sys_munmap` of `api/src/imp/mm/mmap.rs`.  `sys_mmap` rounds the hint down and
the end of the request up, and maps as many pages as lie between; `sys_munmap`
rounds the length alone.  The two agree unless the offset of the hint in its
page carries the request over one more page.
-/

namespace Vegar.Mm

open Vegar.Lib

/-- `sys_munmap`. -/
def sysMunmap (crates : MmapCrates) (addr length : Nat) :
    AspaceM LinuxError Nat :=
  match alignUp4k length with
  | none => throw .panicked
  | some length => do
      AspaceM.mapErr crates.linuxError
        (AspaceM.ofAxmm fun aspace => crates.unmap aspace addr length)
      return 0

/-- What else `axmm` documents: `find_free_area` gives a free range of whole
pages inside its limits, and such a range can be unmapped. -/
structure MmapCrates.Placing (crates : MmapCrates) : Prop where
  findsFree :
    ∀ aspace hint size lower upper found,
      crates.findFreeArea aspace hint size lower upper .size4K = some found →
        found % pageSize4k = 0 ∧ lower ≤ found ∧ found + size ≤ upper ∧
          ∀ number, Touches found size number → aspace.pages number = none
  unmapsInside :
    ∀ aspace start size, start % pageSize4k = 0 → size % pageSize4k = 0 →
      aspace.base ≤ start → start + size ≤ aspace.base + aspace.size →
        ∃ after, crates.unmap aspace start size = (.ok (), after)

def AddrSpace.IsMapped (aspace : AddrSpace) (number : Nat) : Prop :=
  (aspace.pages number).isSome = true

/-- The mapping at `found` consists of exactly the pages of the rounded length,
which were free before, and `sys_munmap` of the length takes them away
again. -/
def MunmapUndoes (crates : MmapCrates) (request : MmapRequest)
    (aspace : AddrSpace) (found : Nat) (mapped : AddrSpace) : Prop :=
  ∃ rounded, alignUp4k request.length = some rounded ∧
    (∀ number, Touches found rounded number → ¬ aspace.IsMapped number) ∧
    (∀ number, mapped.IsMapped number ↔ aspace.IsMapped number ∨ Touches found rounded number) ∧
    ∃ after,
      (sysMunmap crates found request.length).runOn mapped = (.ok 0, after) ∧
        ∀ number, after.IsMapped number ↔ aspace.IsMapped number

def MmapRequest.HintFits (request : MmapRequest) : Prop :=
  request.addr % pageSize4k + request.length ≤ alignDown4k (request.length + (pageSize4k - 1))

instance (request : MmapRequest) : Decidable request.HintFits := inferInstanceAs (Decidable (_ ≤ _))

section Undo

variable {crates : MmapCrates} {request : MmapRequest} {aspace : AddrSpace}

theorem MmapRequest.region_of_4k {start size : Nat} (smallPages : request.pageSize = .size4K)
    (aligned : request.region = some (start, size)) :
    size % pageSize4k = 0 ∧
      ∃ rounded, alignUp4k request.length = some rounded ∧
        rounded % pageSize4k = 0 ∧ rounded ≤ size ∧
        (size = rounded ↔ request.HintFits) := by
  unfold region at aligned
  simp only [smallPages, Option.bind_eq_bind, Option.bind_eq_some_iff,
    Option.pure_def, Option.some.injEq, Prod.mk.injEq] at aligned
  obtain ⟨sum, added, stop, up, -, rfl⟩ := aligned
  obtain ⟨-, rfl⟩ := usizeAdd_eq_some.mp added
  obtain ⟨raised, fits, rfl⟩ := Option.map_eq_some_iff.mp up
  obtain ⟨noOverflow, rfl⟩ := usizeAdd_eq_some.mp fits
  have lengthFits : usizeAdd request.length pageSize4k = some (request.length + pageSize4k) := by
    apply usizeAdd_of_le
    simp only [PageSize.bytes] at noOverflow
    simp only [pageSize4k]
    omega
  have roundedLength :
      alignUp4k request.length = some (alignDown4k (request.length + (pageSize4k - 1))) := by
    rw [alignUp4k, lengthFits, Option.map_some]
    rfl
  simp only [HintFits, roundedLength, Option.some.injEq, exists_eq_left',
    alignDown, alignDown4k, PageSize.bytes, pageSize4k]
  omega

theorem mmapTarget_movable_ok (placing : crates.Placing)
    (movable : request.mapFlags.contains MmapFlags.fixed = false)
    (smallPages : request.pageSize = .size4K)
    {found size : Nat} {between : AddrSpace}
    (ran : (mmapTarget crates request).runOn aspace = (.ok (found, size), between)) :
    (∃ start, request.region = some (start, size)) ∧ found % pageSize4k = 0 ∧ aspace.base ≤ found ∧
      found + size ≤ aspace.base + aspace.size ∧
      ∀ number, Touches found size number → aspace.pages number = none := by
  obtain ⟨start, region, chosen⟩ := mmapTarget_ok ran
  refine ⟨⟨start, region⟩, ?_⟩
  simp only [startAddr, movable, Bool.false_eq_true, if_false, AspaceM.runOn,
    StateT.run, ExceptT.run] at chosen
  split at chosen
  · next hit =>
      obtain rfl := Except.ok.inj (Prod.mk.inj chosen).1
      rw [smallPages] at hit
      rcases Option.or_eq_some_iff.mp hit with first | ⟨-, second⟩
      · exact placing.findsFree _ _ _ _ _ _ first
      · exact placing.findsFree _ _ _ _ _ _ second
  · cases (Prod.mk.inj chosen).1

theorem sysMmap_anonymous_ok (documented : crates.Documented) (placing : crates.Placing)
    (anonymous : request.mapFlags.contains MmapFlags.anonymous = true)
    (movable : request.mapFlags.contains MmapFlags.fixed = false)
    (smallPages : request.pageSize = .size4K)
    {found : Nat} {mapped : AddrSpace}
    (succeeded : (sysMmap crates request).runOn aspace = (.ok found, mapped)) :
    ∃ size, (∃ start, request.region = some (start, size)) ∧
      found % pageSize4k = 0 ∧ aspace.base ≤ found ∧
      found + size ≤ aspace.base + aspace.size ∧
      (∀ number, Touches found size number → aspace.pages number = none) ∧
      mapped = aspace.withRange found size (some (freshPage (mappingFlags request.prot))) := by
  obtain ⟨size, between, ran, filled⟩ := sysMmap_ok documented succeeded
  obtain ⟨region, aligned, above, below, free⟩ :=
    mmapTarget_movable_ok placing movable smallPages ran
  have noFile : request.populate = false := by
    simp [MmapRequest.populate, anonymous]
  simp only [fillFromFile, noFile, Bool.false_eq_true, if_false, AspaceM.runOn_pure] at filled
  exact ⟨size, region, aligned, above, below, free, (Prod.mk.inj filled).2.symm⟩

theorem sysMunmap_runOn (documented : crates.Documented) (placing : crates.Placing)
    {start length rounded : Nat} {mapped : AddrSpace}
    (up : alignUp4k length = some rounded)
    (wholePages : rounded % pageSize4k = 0)
    (aligned : start % pageSize4k = 0) (above : mapped.base ≤ start)
    (below : start + rounded ≤ mapped.base + mapped.size) :
    (sysMunmap crates start length).runOn mapped =
      (.ok 0, mapped.withRange start rounded none) := by
  obtain ⟨after, removed⟩ :=
    placing.unmapsInside mapped start rounded aligned wholePages above below
  have isAfter := documented.unmapRemoves _ _ _ _ removed
  subst isAfter
  unfold sysMunmap
  rw [up]
  simp only [AspaceM.runOn_bind, AspaceM.runOn_mapErr_ofAxmm, removed,
    Except.mapError, AspaceM.runOn_pure]

theorem isMapped_withRange (start size number : Nat) (page : Option Page) :
    (aspace.withRange start size page).IsMapped number ↔
      if Touches start size number then page.isSome = true
      else aspace.IsMapped number := by
  unfold AddrSpace.IsMapped AddrSpace.withRange
  by_cases touches : Touches start size number
  · simp only [if_pos touches]
  · simp only [if_neg touches]

theorem le_of_touches {start size rounded : Nat} (wholePages : size % pageSize4k = 0)
    (roundedPages : rounded % pageSize4k = 0)
    (aligned : start % pageSize4k = 0)
    (inside : ∀ number, Touches start size number → Touches start rounded number) :
    size ≤ rounded := by
  by_contra longer
  have beyond := inside ((start + rounded) / pageSize4k)
  unfold Touches at beyond
  simp only [pageSize4k] at *
  omega

end Undo

/-- `sys_munmap` undoes an anonymous `sys_mmap` exactly when the offset of the
hint in its page does not make the request need one more page. -/
theorem munmap_undoes_mmap_iff (crates : MmapCrates) (documented : crates.Documented)
    (placing : crates.Placing) (request : MmapRequest) (aspace : AddrSpace)
    (anonymous : request.mapFlags.contains MmapFlags.anonymous = true)
    (movable : request.mapFlags.contains MmapFlags.fixed = false)
    (smallPages : request.pageSize = .size4K)
    (found : Nat) (mapped : AddrSpace)
    (succeeded : (sysMmap crates request).runOn aspace = (.ok found, mapped)) :
    MunmapUndoes crates request aspace found mapped ↔ request.HintFits := by
  obtain ⟨size, ⟨start, region⟩, aligned, above, below, free, rfl⟩ :=
    sysMmap_anonymous_ok documented placing anonymous movable smallPages succeeded
  obtain ⟨wholePages, rounded, up, roundedPages, shorter, fits⟩ :=
    MmapRequest.region_of_4k smallPages region
  rw [← fits]
  constructor
  · rintro ⟨length, isLength, -, same, -⟩
    obtain rfl := Option.some.inj (up.symm.trans isLength)
    refine Nat.le_antisymm ?_ shorter
    apply le_of_touches wholePages roundedPages aligned
    intro number touches
    have isMapped := (same number).mp
      ((isMapped_withRange found size number _).mpr (by rw [if_pos touches]; rfl))
    rcases isMapped with before | inside
    · rw [AddrSpace.IsMapped, free number touches] at before
      cases before
    · exact inside
  · rintro rfl
    have notMapped : ∀ number, Touches found size number → ¬ aspace.IsMapped number := by
      intro number touches isMapped
      rw [AddrSpace.IsMapped, free number touches] at isMapped
      cases isMapped
    refine ⟨size, up, notMapped, ?_, _,
      sysMunmap_runOn documented placing up wholePages aligned above below,
      ?_⟩
    · intro number
      rw [isMapped_withRange]
      by_cases touches : Touches found size number
      · simp [touches]
      · simp [touches]
    · intro number
      rw [AddrSpace.withRange_withRange, isMapped_withRange]
      by_cases touches : Touches found size number
      · simp [touches, notMapped number touches]
      · simp [touches]

def MmapCrates.placed : MmapCrates :=
  { MmapCrates.reference with
    findFreeArea := fun aspace hint size lower upper pageSize =>
      if hint % pageSize4k = 0 then
        MmapCrates.reference.findFreeArea aspace hint size lower upper pageSize
      else none }

theorem mem_pageNumbers_of_touches {start size number : Nat} (touches : Touches start size number) :
    number ∈ Axmm.pageNumbers start size := by
  obtain ⟨below, above⟩ := touches
  have first : start / pageSize4k ≤ number := Nat.le_of_lt_succ (Nat.div_lt_of_lt_mul (by
      rw [Nat.mul_comm]
      exact above))
  have last : number ≤ (start + size - 1) / pageSize4k := by
    rw [Nat.le_div_iff_mul_le (by decide)]
    exact Nat.le_sub_one_of_lt below
  refine List.mem_map.mpr ⟨number - start / pageSize4k, ?_, ?_⟩
  · rw [List.mem_range]
    omega
  · omega

theorem MmapCrates.placed_documented : placed.Documented where
  unmapFails := reference_documented.unmapFails
  unmapRemoves := reference_documented.unmapRemoves
  mapFails := reference_documented.mapFails
  mapMaps := reference_documented.mapMaps
  writesMapped := reference_documented.writesMapped

theorem MmapCrates.placed_placing : placed.Placing where
  findsFree aspace hint size lower upper found hit := by
    simp only [placed, reference] at hit
    split at hit
    · next aligned =>
        obtain ⟨⟨above, below, free⟩, rfl⟩ :=
          (Option.ite_none_right_eq_some.mp hit).imp_right Option.some.inj
        refine ⟨aligned, above, below, ?_⟩
        intro number touches
        have isNone := List.all_eq_true.mp free number (mem_pageNumbers_of_touches touches)
        exact Option.isNone_iff_eq_none.mp isNone
    · cases hit
  unmapsInside aspace start size _ _ above below := by
    refine ⟨_, if_neg ?_⟩
    omega

def freeSpace : AddrSpace := ⟨0x1000, 0x10000, fun _ => none⟩

def anonymousPage (addr : Nat) : MmapRequest where
  addr := addr
  length := 0x1000
  prot := protRead
  flags := MmapFlags.priv ||| MmapFlags.anonymous
  fd := -1
  offset := 0

theorem munmap_undoes_mmap_iff_wholePage :
    ∃ mapped, (sysMmap .placed (anonymousPage 0x1000)).runOn freeSpace = (.ok 0x1000, mapped) ∧
      (MunmapUndoes .placed (anonymousPage 0x1000) freeSpace 0x1000 mapped ↔
        (anonymousPage 0x1000).HintFits) := by
  have placed : ((sysMmap .placed (anonymousPage 0x1000)).runOn freeSpace).1 = .ok 0x1000 := by
    decide +kernel
  have succeeded :
      (sysMmap .placed (anonymousPage 0x1000)).runOn freeSpace =
        (.ok 0x1000, ((sysMmap .placed (anonymousPage 0x1000)).runOn freeSpace).2) :=
    Prod.ext placed rfl
  exact ⟨_, succeeded,
      munmap_undoes_mmap_iff .placed MmapCrates.placed_documented
        MmapCrates.placed_placing (anonymousPage 0x1000) freeSpace
        (by decide) (by decide) (by decide) 0x1000 _ succeeded⟩

/-- With the hint one byte into a page, two pages are mapped for one, and the
second one stays. -/
theorem munmap_leaves_second_page :
    let mapped := ((sysMmap .placed (anonymousPage 0x1001)).runOn freeSpace).2
    let after := ((sysMunmap .placed 0x1000 0x1000).runOn mapped).2
    ((sysMmap .placed (anonymousPage 0x1001)).runOn freeSpace).1 = .ok 0x1000 ∧
      mapped.IsMapped 2 ∧ ¬ freeSpace.IsMapped 2 ∧ after.IsMapped 2 ∧
      ¬ MunmapUndoes .placed (anonymousPage 0x1001) freeSpace 0x1000
        mapped := by
  intro mapped after
  have isMapped : mapped.IsMapped 2 := by
    change (mapped.pages 2).isSome = true
    decide +kernel
  have wasFree : ¬ freeSpace.IsMapped 2 := by
    change ¬ (freeSpace.pages 2).isSome = true
    decide
  have stays : after.IsMapped 2 := by
    change (after.pages 2).isSome = true
    decide +kernel
  refine ⟨by decide +kernel, isMapped, wasFree, stays, ?_⟩
  rintro ⟨rounded, up, -, same, -⟩
  have isPage : alignUp4k (anonymousPage 0x1001).length = some 0x1000 := by
    decide +kernel
  obtain rfl := Option.some.inj (up.symm.trans isPage)
  rcases (same 2).mp isMapped with before | touches
  · exact wasFree before
  · exact absurd touches (by decide)

end Vegar.Mm

import Vegar.Mm.AddrSpace

/-!
# Pointers into user memory

`UserPtr` and `UserConstPtr` of `api/src/ptr.rs`.  Every system call that is
given an address and a length goes through `check_region`; the address and
the length are arbitrary 64-bit numbers.  Arithmetic that would overflow is a
panic, as is `unwrap` on the error of `Layout::array`.
-/

namespace Vegar.Mm

open Vegar.Lib

structure ElemType where
  size : Nat
  align : Nat
  alignPower : ∃ exponent, align = 2 ^ exponent
  alignDivides : align ∣ size
  sizeFits : size ≤ isizeMax

/-- `core::alloc::Layout`. -/
structure Layout where
  size : Nat
  align : Nat
  alignPower : ∃ exponent, align = 2 ^ exponent

namespace Layout

/-- `Layout::new`. -/
def new (elem : ElemType) : Layout where
  size := elem.size
  align := elem.align
  alignPower := elem.alignPower

/-- `Layout::array`, which has no layout for more than `isize::MAX` bytes. -/
def array (elem : ElemType) (len : Nat) : Option Layout :=
  if len * elem.size ≤ isizeMax then
    some ⟨len * elem.size, elem.align, elem.alignPower⟩
  else none

end Layout

structure UserSlice where
  addr : Nat
  len : Nat
  deriving DecidableEq, Repr

/-- `check_region`. -/
def checkRegion (crates : MmCrates) (aspace : AddrSpace)
    (start : Nat) (layout : Layout) (accessFlags : MappingFlags) :
    Except (Fault LinuxError) Unit × AddrSpace :=
  if start &&& (layout.align - 1) ≠ 0 then
    (.error (.err .EFAULT), aspace)
  else
    match usizeAdd start layout.size with
    | none => (.error .panicked, aspace)
    | some stop =>
        if crates.axmm.checkRegionAccess aspace start stop accessFlags then
          match alignUp4k stop with
          | none => (.error .panicked, aspace)
          | some pageEnd =>
              let pageStart := alignDown4k start
              match crates.axmm.populateArea aspace pageStart (pageEnd - pageStart) accessFlags
              with
              | (.ok (), after) => (.ok (), after)
              | (.error error, after) =>
                  (.error (.err (crates.linuxError error)), after)
        else (.error (.err .EFAULT), aspace)

/-- The access that `get_as_mut` and `get_as_ref` make. -/
def getElement (crates : MmCrates) (accessFlags : MappingFlags)
    (aspace : AddrSpace) (elem : ElemType) (addr : BitVec 64) :
    Except (Fault LinuxError) UserSlice × AddrSpace :=
  match checkRegion crates aspace addr.toNat (Layout.new elem) accessFlags
  with
  | (.ok (), after) => (.ok ⟨addr.toNat, 1⟩, after)
  | (.error fault, after) => (.error fault, after)

/-- The access that `get_as_mut_slice` and `get_as_slice` make. -/
def getElements (crates : MmCrates) (accessFlags : MappingFlags)
    (aspace : AddrSpace) (elem : ElemType) (addr len : BitVec 64) :
    Except (Fault LinuxError) UserSlice × AddrSpace :=
  match Layout.array elem len.toNat with
  | none => (.error .panicked, aspace)
  | some layout =>
      match checkRegion crates aspace addr.toNat layout accessFlags with
      | (.ok (), after) => (.ok ⟨addr.toNat, len.toNat⟩, after)
      | (.error fault, after) => (.error fault, after)

namespace UserPtr

/-- `UserPtr::ACCESS_FLAGS`. -/
def accessFlags : MappingFlags := .readWrite

/-- `UserPtr::get_as_mut`. -/
def getAsMut (crates : MmCrates) := getElement crates accessFlags

/-- `UserPtr::get_as_mut_slice`. -/
def getAsMutSlice (crates : MmCrates) := getElements crates accessFlags

end UserPtr

namespace UserConstPtr

/-- `UserConstPtr::ACCESS_FLAGS`. -/
def accessFlags : MappingFlags := .readOnly

/-- `UserConstPtr::get_as_ref`. -/
def getAsRef (crates : MmCrates) := getElement crates accessFlags

/-- `UserConstPtr::get_as_slice`. -/
def getAsSlice (crates : MmCrates) := getElements crates accessFlags

end UserConstPtr

/-! ## When an access is answered -/

/-- The access ends in `Ok` or `EFAULT`, and in `Ok` only for an aligned
range that does not wrap around and that `check_region_access` accepted. -/
def AccessSound (crates : MmCrates) (accessFlags : MappingFlags)
    (aspace : AddrSpace) (elem : ElemType) (addr len : Nat)
    (result : Except (Fault LinuxError) UserSlice) : Prop :=
  ((∃ slice, result = .ok slice) ∨ result = .error (.err .EFAULT)) ∧
    ((∃ slice, result = .ok slice) →
      addr % elem.align = 0 ∧ addr + len * elem.size ≤ usizeMax ∧
        crates.axmm.checkRegionAccess aspace addr (addr + len * elem.size) accessFlags = true)

/-- The requests `check_region` is good for: the byte count fits an `isize`;
an aligned range ends within the 64-bit numbers; and for an accepted one the
rounding up to a page does not overflow, and populating it does not fail with
anything but `EFAULT`. -/
def RequestFits (crates : MmCrates) (accessFlags : MappingFlags)
    (aspace : AddrSpace) (elem : ElemType) (addr len : Nat) : Prop :=
  len * elem.size ≤ isizeMax ∧
    (addr % elem.align = 0 →
      addr + len * elem.size ≤ usizeMax ∧
        (crates.axmm.checkRegionAccess aspace addr (addr + len * elem.size) accessFlags = true →
          ∃ pageEnd,
            alignUp4k (addr + len * elem.size) = some pageEnd ∧
              ∀ error after,
                crates.axmm.populateArea aspace (alignDown4k addr)
                    (pageEnd - alignDown4k addr) accessFlags =
                  (.error error, after) →
                crates.linuxError error = .EFAULT))

/-- The part of `RequestFits` that concerns `check_region` itself. -/
def RegionFits (crates : MmCrates) (accessFlags : MappingFlags)
    (aspace : AddrSpace) (start : Nat) (layout : Layout) : Prop :=
  start % layout.align = 0 →
    start + layout.size ≤ usizeMax ∧
      (crates.axmm.checkRegionAccess aspace start (start + layout.size) accessFlags = true →
        ∃ pageEnd,
          alignUp4k (start + layout.size) = some pageEnd ∧
            ∀ error after,
              crates.axmm.populateArea aspace (alignDown4k start)
                  (pageEnd - alignDown4k start) accessFlags =
                (.error error, after) →
              crates.linuxError error = .EFAULT)

section CheckRegion

variable {crates : MmCrates} {accessFlags : MappingFlags}
  {aspace : AddrSpace} {start : Nat} {layout : Layout}

theorem checkRegion_misaligned (misaligned : start % layout.align ≠ 0) :
    checkRegion crates aspace start layout accessFlags = (.error (.err .EFAULT), aspace) := by
  have bits : start &&& (layout.align - 1) ≠ 0 := by
    rwa [Ne, and_pred_eq_zero_iff layout.alignPower]
  rw [checkRegion, if_pos bits]

theorem checkRegion_overflow (aligned : start % layout.align = 0)
    (overflow : ¬ start + layout.size ≤ usizeMax) :
    checkRegion crates aspace start layout accessFlags = (.error .panicked, aspace) := by
  have bits : ¬ start &&& (layout.align - 1) ≠ 0 := by
    rwa [not_ne_iff, and_pred_eq_zero_iff layout.alignPower]
  have noEnd : usizeAdd start layout.size = none := by
    simp only [usizeAdd_eq_none]
    omega
  rw [checkRegion, if_neg bits, noEnd]

theorem checkRegion_refused (aligned : start % layout.align = 0)
    (inside : start + layout.size ≤ usizeMax)
    (refused :
      crates.axmm.checkRegionAccess aspace start (start + layout.size) accessFlags = false) :
    checkRegion crates aspace start layout accessFlags = (.error (.err .EFAULT), aspace) := by
  have bits : ¬ start &&& (layout.align - 1) ≠ 0 := by
    rwa [not_ne_iff, and_pred_eq_zero_iff layout.alignPower]
  have stop : usizeAdd start layout.size = some (start + layout.size) := by
    simp [inside]
  simp only [checkRegion, if_neg bits, stop, refused]
  rfl

theorem checkRegion_accepted (aligned : start % layout.align = 0)
    (inside : start + layout.size ≤ usizeMax)
    (accepted :
      crates.axmm.checkRegionAccess aspace start (start + layout.size) accessFlags = true) :
    checkRegion crates aspace start layout accessFlags =
      match alignUp4k (start + layout.size) with
      | none => (.error .panicked, aspace)
      | some pageEnd =>
          match
            crates.axmm.populateArea aspace (alignDown4k start)
              (pageEnd - alignDown4k start) accessFlags
          with
          | (.ok (), after) => (.ok (), after)
          | (.error error, after) =>
              (.error (.err (crates.linuxError error)), after) := by
  have bits : ¬ start &&& (layout.align - 1) ≠ 0 := by
    rwa [not_ne_iff, and_pred_eq_zero_iff layout.alignPower]
  have stop : usizeAdd start layout.size = some (start + layout.size) := by
    simp [inside]
  simp only [checkRegion, if_neg bits, stop, accepted, if_true]

theorem checkRegion_ok (granted : (checkRegion crates aspace start layout accessFlags).1 = .ok ()) :
    start % layout.align = 0 ∧ start + layout.size ≤ usizeMax ∧
      crates.axmm.checkRegionAccess aspace start (start + layout.size) accessFlags = true := by
  by_cases aligned : start % layout.align = 0
  · by_cases inside : start + layout.size ≤ usizeMax
    · cases answer :
        crates.axmm.checkRegionAccess aspace start (start + layout.size) accessFlags with
      | true =>
          exact ⟨aligned, inside, rfl⟩
      | false =>
          rw [checkRegion_refused aligned inside answer] at granted
          cases granted
    · rw [checkRegion_overflow aligned inside] at granted
      cases granted
  · rw [checkRegion_misaligned aligned] at granted
    cases granted

theorem checkRegion_answers_iff :
    ((checkRegion crates aspace start layout accessFlags).1 = .ok () ∨
        (checkRegion crates aspace start layout accessFlags).1 = .error (.err .EFAULT)) ↔
      RegionFits crates accessFlags aspace start layout := by
  unfold RegionFits
  by_cases aligned : start % layout.align = 0
  · by_cases inside : start + layout.size ≤ usizeMax
    · cases answer :
        crates.axmm.checkRegionAccess aspace start (start + layout.size) accessFlags with
      | false =>
          rw [checkRegion_refused aligned inside answer]
          simp [inside]
      | true =>
          rw [checkRegion_accepted aligned inside answer]
          cases rounded : alignUp4k (start + layout.size) with
          | none =>
              simp [aligned]
          | some pageEnd =>
              simp only [aligned, inside, true_and, forall_const,
                Option.some.injEq, exists_eq_left']
              cases populated :
                crates.axmm.populateArea aspace (alignDown4k start)
                  (pageEnd - alignDown4k start) accessFlags with
              | mk result after =>
                  cases result with
                  | ok value =>
                      simp
                  | error error =>
                      simp
    · rw [checkRegion_overflow aligned inside]
      simp [aligned, inside]
  · rw [checkRegion_misaligned aligned]
    simp [aligned]

end CheckRegion

section Access

variable (crates : MmCrates) (accessFlags : MappingFlags)
  (aspace : AddrSpace) (elem : ElemType) (addr len : BitVec 64)

private theorem getElement_sound_iff :
    AccessSound crates accessFlags aspace elem addr.toNat 1
        (getElement crates accessFlags aspace elem addr).1 ↔
      RequestFits crates accessFlags aspace elem addr.toNat 1 := by
  have answers := @checkRegion_answers_iff crates accessFlags aspace addr.toNat (Layout.new elem)
  have granted := @checkRegion_ok crates accessFlags aspace addr.toNat (Layout.new elem)
  have fits :
      RequestFits crates accessFlags aspace elem addr.toNat 1 ↔
        RegionFits crates accessFlags aspace addr.toNat (Layout.new elem) := by
    simp only [RequestFits, RegionFits, Layout.new, Nat.one_mul, elem.sizeFits, true_and]
  rw [fits, ← answers]
  unfold AccessSound getElement
  cases outcome : checkRegion crates aspace addr.toNat (Layout.new elem) accessFlags with
  | mk result after =>
      rw [outcome] at granted
      cases result with
      | ok value =>
          have checks := granted rfl
          simp only [Layout.new] at checks
          simp [checks]
      | error fault =>
          simp

private theorem getElements_sound_iff :
    AccessSound crates accessFlags aspace elem addr.toNat len.toNat
        (getElements crates accessFlags aspace elem addr len).1 ↔
      RequestFits crates accessFlags aspace elem addr.toNat len.toNat := by
  by_cases small : len.toNat * elem.size ≤ isizeMax
  · let layout : Layout := ⟨len.toNat * elem.size, elem.align, elem.alignPower⟩
    have isLayout : Layout.array elem len.toNat = some layout := by
      simp [Layout.array, small, layout]
    have answers := @checkRegion_answers_iff crates accessFlags aspace addr.toNat layout
    have granted := @checkRegion_ok crates accessFlags aspace addr.toNat layout
    have fits :
        RequestFits crates accessFlags aspace elem addr.toNat len.toNat ↔
          RegionFits crates accessFlags aspace addr.toNat layout := by
      simp only [RequestFits, RegionFits, layout, small, true_and]
    rw [fits, ← answers]
    unfold AccessSound getElements
    rw [isLayout]
    cases outcome : checkRegion crates aspace addr.toNat layout accessFlags with
    | mk result after =>
        rw [outcome] at granted
        cases result with
        | ok value =>
            have checks := granted rfl
            simp only [layout] at checks
            simp [checks, outcome]
        | error fault =>
            simp [outcome]
  · have noLayout : Layout.array elem len.toNat = none := by
      simp [Layout.array, small]
    simp [AccessSound, RequestFits, getElements, noLayout, small]

/-- The four accessors of user memory answer soundly exactly on the requests
that fit. -/
theorem userAccess_sound_iff_requestFits :
    (AccessSound crates UserPtr.accessFlags aspace elem addr.toNat len.toNat
          (UserPtr.getAsMutSlice crates aspace elem addr len).1 ↔
        RequestFits crates UserPtr.accessFlags aspace elem addr.toNat len.toNat) ∧
      (AccessSound crates UserConstPtr.accessFlags aspace elem addr.toNat len.toNat
            (UserConstPtr.getAsSlice crates aspace elem addr len).1 ↔
          RequestFits crates UserConstPtr.accessFlags aspace elem addr.toNat len.toNat) ∧
      (AccessSound crates UserPtr.accessFlags aspace elem addr.toNat 1
            (UserPtr.getAsMut crates aspace elem addr).1 ↔
          RequestFits crates UserPtr.accessFlags aspace elem addr.toNat 1) ∧
      (AccessSound crates UserConstPtr.accessFlags aspace elem addr.toNat 1
            (UserConstPtr.getAsRef crates aspace elem addr).1 ↔
          RequestFits crates UserConstPtr.accessFlags aspace elem addr.toNat 1) :=
  ⟨getElements_sound_iff crates _ aspace elem addr len,
    getElements_sound_iff crates _ aspace elem addr len,
    getElement_sound_iff crates _ aspace elem addr,
    getElement_sound_iff crates _ aspace elem addr⟩

end Access

/-- `u8`. -/
def ElemType.byte : ElemType where
  size := 1
  align := 1
  alignPower := ⟨0, rfl⟩
  alignDivides := ⟨1, rfl⟩
  sizeFits := by decide

/-- A buffer of `2 ^ 63` bytes at address 0, as any `read` can name it,
panics in the layout computation. -/
theorem getAsMutSlice_half_range_unsound :
    ¬ AccessSound .reference UserPtr.accessFlags ⟨0x1000, 0x7ffffffff000, fun _ => none⟩ .byte
      (0#64).toNat (BitVec.ofNat 64 (2 ^ 63)).toNat
      (UserPtr.getAsMutSlice .reference ⟨0x1000, 0x7ffffffff000, fun _ => none⟩ .byte
        0#64 (BitVec.ofNat 64 (2 ^ 63))).1 := by
  intro sound
  have fits := (getElements_sound_iff _ _ _ _ _ _).mp sound
  have tooLarge : ¬ (BitVec.ofNat 64 (2 ^ 63)).toNat * ElemType.byte.size ≤ isizeMax := by
    decide
  exact tooLarge fits.1

end Vegar.Mm

import Vegar.Mm.UserString

/-!
# What the scan of a null-terminated array returns

`check_null_terminated` against the first zero element of the array, and the
pages it has accepted before it reads an element.  The end of the last page
of the address space is no address, and asking for its range is a panic.
-/

namespace Vegar.Mm

open Vegar.Lib

structure ScanInput where
  axmm : Axmm
  aspace : AddrSpace
  elem : ElemType
  accessFlags : MappingFlags
  start : Nat
  startFits : start ≤ usizeMax
  sizeIsAlign : elem.size = elem.align
  sizeSmall : elem.size ≤ pageSize4k
  acceptedMapped :
    ∀ page, page % pageSize4k = 0 →
      axmm.checkRegionAccess aspace page (page + pageSize4k) accessFlags = true →
        (aspace.pages (page / pageSize4k)).isSome = true

inductive ScanEvent where
  /-- `check_region_access` accepts the page at this address. -/
  | accepted (page : Nat)
  /-- The element at this address is read. -/
  | read (addr : Nat)
  deriving DecidableEq, Repr

inductive ScanStep where
  | returns (events : List ScanEvent) (result : Except (Fault LinuxError) Nat)
  | goesOn (event : ScanEvent) (page len : Nat)

def scanEvents (step : Nat → Nat → ScanStep) : (fuel page len : Nat) → List ScanEvent
  | 0, _, _ => []
  | fuel + 1, page, len =>
      match step page len with
      | .returns events _ => events
      | .goesOn event page len => event :: scanEvents step fuel page len

namespace ScanInput

variable (input : ScanInput)

def call (fuel : Nat) : Except (Fault LinuxError) Nat :=
  checkNullTerminated input.axmm input.aspace input.elem input.accessFlags fuel input.start

def scan (fuel page len : Nat) : Except (Fault LinuxError) Nat :=
  scanNullTerminated input.axmm input.aspace input.elem input.accessFlags input.start fuel page len

def step (page len : Nat) : ScanStep :=
  match usizeAdd input.start (len * input.elem.size) with
  | none => .returns [] (.error .panicked)
  | some ptr =>
      if page ≤ ptr then
        match usizeAdd page pageSize4k with
        | none => .returns [] (.error .panicked)
        | some next =>
            if input.axmm.checkRegionAccess input.aspace page next input.accessFlags then
              .goesOn (.accepted page) next len
            else .returns [] (.error (.err .EFAULT))
      else
        match isZeroElement input.aspace input.elem ptr with
        | none => .returns [.read ptr] (.error .exited)
        | some true => .returns [.read ptr] (.ok len)
        | some false => .goesOn (.read ptr) page (len + 1)

def events (fuel : Nat) : List ScanEvent :=
  if input.start &&& (input.elem.align - 1) ≠ 0 then []
  else scanEvents input.step fuel (alignDown4k input.start) 0

attribute [local irreducible] usizeAdd in
theorem scan_succ (fuel page len : Nat) :
    input.scan (fuel + 1) page len =
      match input.step page len with
      | .returns _ result => result
      | .goesOn _ page len => input.scan fuel page len := by
  unfold scan
  conv_lhs => whnf
  unfold step
  cases usizeAdd input.start (len * input.elem.size) with
  | none => rfl
  | some ptr =>
      by_cases unchecked : page ≤ ptr
      · simp only [if_pos unchecked]
        cases usizeAdd page pageSize4k with
        | none => rfl
        | some next =>
            dsimp only
            split
            · rfl
            · rfl
      · simp only [if_neg unchecked]
        cases isZeroElement input.aspace input.elem ptr with
        | none => rfl
        | some isZero =>
            cases isZero with
            | false => rfl
            | true => rfl

/-! ## The array -/

def ptr (index : Nat) : Nat := input.start + index * input.elem.size

def page (index : Nat) : Nat := alignDown4k (input.ptr index)

def Accessible (page : Nat) : Prop := page + pageSize4k ≤ usizeMax ∧
    input.axmm.checkRegionAccess input.aspace page (page + pageSize4k) input.accessFlags = true

def Zero (index : Nat) : Prop := isZeroElement input.aspace input.elem (input.ptr index) = some true

def Passes (index : Nat) : Prop := input.Accessible (input.page index) ∧ ¬ input.Zero index

def FaultsFirst : Prop :=
  ∃ index, ¬ input.Accessible (input.page index) ∧ ∀ earlier < index, input.Passes earlier

/-- `EFAULT` for a misaligned start and an inaccessible page in front of the
first zero element, and the index of this element otherwise. -/
structure Exact (result : Except (Fault LinuxError) Nat) : Prop where
  faultIff : result = .error (.err .EFAULT) ↔ input.start % input.elem.align ≠ 0 ∨ input.FaultsFirst
  found :
    ¬ (input.start % input.elem.align ≠ 0 ∨ input.FaultsFirst) →
      ∃ index, result = .ok index ∧ input.Zero index ∧ ∀ earlier < index, ¬ input.Zero earlier

def InAccepted (events : List ScanEvent) (addr : Nat) : Prop :=
  ∃ page, .accepted page ∈ events ∧ input.Accessible page ∧
    page ≤ addr ∧ addr + input.elem.size ≤ page + pageSize4k

def ReadsChecked (known events : List ScanEvent) : Prop :=
  ∀ front addr back, events = front ++ .read addr :: back → input.InAccepted (known ++ front) addr

def StopsBelowLastPage : Prop := ∃ index, input.page index + pageSize4k ≤ usizeMax ∧
    (¬ input.Accessible (input.page index) ∨ input.Zero index)

end ScanInput

/-! ## Elements and pages -/

theorem alignDown4k_le (addr : Nat) : alignDown4k addr ≤ addr := Nat.sub_le _ _

theorem lt_alignDown4k_add (addr : Nat) :
    addr < alignDown4k addr + pageSize4k := by
  unfold alignDown4k pageSize4k
  omega

theorem alignDown4k_mod (addr : Nat) : alignDown4k addr % pageSize4k = 0 := by
  unfold alignDown4k pageSize4k
  omega

theorem AddrSpace.isSome_bytesAt {aspace : AddrSpace} {number count addr : Nat}
    (mapped : (aspace.pages number).isSome = true)
    (above : number * pageSize4k ≤ addr)
    (below : addr + count ≤ number * pageSize4k + pageSize4k) :
    (aspace.bytesAt addr count).isSome = true := by
  induction count generalizing addr with
  | zero => rfl
  | succ count ih =>
      have isNumber : addr / pageSize4k = number := by
        unfold pageSize4k at above below ⊢
        omega
      obtain ⟨page, isPage⟩ := Option.isSome_iff_exists.mp mapped
      obtain ⟨rest, isRest⟩ := Option.isSome_iff_exists.mp (@ih (addr + 1) (by omega) (by omega))
      simp [bytesAt, byteAt, isNumber, isPage, isRest]

namespace ScanInput

variable {input : ScanInput}

theorem size_pos : 0 < input.elem.size := by
  obtain ⟨exponent, isPower⟩ := input.elem.alignPower
  rw [input.sizeIsAlign, isPower]
  exact Nat.two_pow_pos exponent

theorem size_dvd_page : input.elem.size ∣ pageSize4k := by
  obtain ⟨exponent, isPower⟩ := input.elem.alignPower
  have small := input.sizeSmall
  rw [input.sizeIsAlign, isPower] at small ⊢
  have isPage : pageSize4k = 2 ^ 12 := rfl
  rw [isPage] at small ⊢
  exact Nat.pow_dvd_pow 2 ((Nat.pow_le_pow_iff_right (by decide)).mp small)

theorem ptr_succ (index : Nat) : input.ptr (index + 1) = input.ptr index + input.elem.size := by
  unfold ptr
  rw [Nat.succ_mul, Nat.add_assoc]

theorem ptr_mono {index later : Nat} (before : index ≤ later) :
    input.ptr index ≤ input.ptr later :=
  Nat.add_le_add_left (Nat.mul_le_mul_right _ before) _

theorem page_mono {index later : Nat} (before : index ≤ later) :
    input.page index ≤ input.page later := by
  have above := @ptr_mono input index later before
  unfold page alignDown4k pageSize4k
  omega

theorem isSome_element {index : Nat} (accessible : input.Accessible (input.page index))
    (inside : input.ptr index + input.elem.size ≤ input.page index + pageSize4k) :
    ∃ isZero,
      isZeroElement input.aspace input.elem (input.ptr index) =
        some isZero := by
  have mapped := input.acceptedMapped _ (alignDown4k_mod _) accessible.2
  have isPage : input.page index / pageSize4k * pageSize4k = input.page index :=
    Nat.div_mul_cancel (Nat.dvd_of_mod_eq_zero (alignDown4k_mod _))
  have above :
      input.page index / pageSize4k * pageSize4k ≤ input.ptr index := by
    rw [isPage]
    exact alignDown4k_le _
  have below :
      input.ptr index + input.elem.size ≤
        input.page index / pageSize4k * pageSize4k + pageSize4k := by
    rw [isPage]
    exact inside
  have read := AddrSpace.isSome_bytesAt mapped above below
  obtain ⟨bytes, isBytes⟩ := Option.isSome_iff_exists.mp read
  exact ⟨_, by rw [isZeroElement, isBytes, Option.map_some]⟩

/-! ## One pass -/

structure Stands (input : ScanInput) (page len : Nat) : Prop where
  ptrFits : input.ptr len ≤ usizeMax
  position :
    page = input.page len ∨ page = input.page len + pageSize4k ∧ input.Accessible (input.page len)

theorem Stands.start (input : ScanInput) : input.Stands (alignDown4k input.start) 0 where
  ptrFits := by
    rw [ptr, Nat.zero_mul]
    exact input.startFits
  position := by
    left
    rw [page, ptr, Nat.zero_mul]
    rfl

section Passes

variable {len : Nat} (fits : input.ptr len ≤ usizeMax)

include fits

theorem step_of_unchecked :
    input.step (input.page len) len =
      if input.page len + pageSize4k ≤ usizeMax then
        if input.axmm.checkRegionAccess input.aspace (input.page len)
            (input.page len + pageSize4k) input.accessFlags then
          .goesOn (.accepted (input.page len)) (input.page len + pageSize4k) len
        else .returns [] (.error (.err .EFAULT))
      else .returns [] (.error .panicked) := by
  have isPtr : usizeAdd input.start (len * input.elem.size) = some (input.ptr len) :=
    usizeAdd_of_le fits
  have below : input.page len ≤ input.ptr len := alignDown4k_le _
  simp only [step, isPtr, if_pos below]
  by_cases ends : input.page len + pageSize4k ≤ usizeMax
  · simp only [usizeAdd_of_le ends, if_pos ends]
  · have noEnd : usizeAdd (input.page len) pageSize4k = none := usizeAdd_eq_none.mpr (by omega)
    simp only [noEnd, if_neg ends]

theorem step_of_accessible (accessible : input.Accessible (input.page len)) :
    input.step (input.page len) len =
      .goesOn (.accepted (input.page len)) (input.page len + pageSize4k)
        len := by
  rw [step_of_unchecked fits, if_pos accessible.1, if_pos accessible.2]

theorem step_of_checked {isZero : Bool}
    (element : isZeroElement input.aspace input.elem (input.ptr len) = some isZero) :
    input.step (input.page len + pageSize4k) len =
      if isZero then .returns [.read (input.ptr len)] (.ok len)
      else
        .goesOn (.read (input.ptr len)) (input.page len + pageSize4k) (len + 1) := by
  have isPtr : usizeAdd input.start (len * input.elem.size) = some (input.ptr len) :=
    usizeAdd_of_le fits
  have above : ¬ input.page len + pageSize4k ≤ input.ptr len :=
    Nat.not_le.mpr (lt_alignDown4k_add _)
  simp only [step, isPtr, if_neg above, element]
  cases isZero with
  | false => rfl
  | true => rfl

end Passes

theorem scan_of_accessible {page len : Nat} (stands : input.Stands page len)
    (accessible : input.Accessible (input.page len)) (fuel : Nat) :
    ∃ left, fuel ≤ left ∧
      input.scan (fuel + 1) page len = input.scan left (input.page len + pageSize4k) len := by
  rcases stands.position with rfl | ⟨rfl, -⟩
  · refine ⟨fuel, Nat.le_refl _, ?_⟩
    rw [scan_succ, step_of_accessible stands.ptrFits accessible]
  · exact ⟨fuel + 1, Nat.le_succ _, rfl⟩

def stopResult (input : ScanInput) (index : Nat) : Except (Fault LinuxError) Nat :=
  if input.page index + pageSize4k ≤ usizeMax then
    if input.axmm.checkRegionAccess input.aspace (input.page index)
        (input.page index + pageSize4k) input.accessFlags then
      .ok index
    else .error (.err .EFAULT)
  else .error .panicked

theorem scan_of_stop {page len : Nat} (stands : input.Stands page len)
    (stops : ¬ input.Passes len) (fuel : Nat) :
    input.scan (fuel + 2) page len = input.stopResult len := by
  unfold stopResult
  by_cases accessible : input.Accessible (input.page len)
  · have zero : input.Zero len := by
      by_contra notZero
      exact stops ⟨accessible, notZero⟩
    obtain ⟨left, enough, reached⟩ := scan_of_accessible stands accessible (fuel + 1)
    obtain ⟨left, rfl⟩ := Nat.exists_eq_add_of_le' enough
    rw [reached, if_pos accessible.1, if_pos accessible.2,
      ← Nat.add_assoc, scan_succ, step_of_checked stands.ptrFits zero]
    rfl
  · rcases stands.position with rfl | ⟨rfl, isAccessible⟩
    · rw [scan_succ, step_of_unchecked stands.ptrFits]
      by_cases ends : input.page len + pageSize4k ≤ usizeMax
      · have refused := fun granted => accessible ⟨ends, granted⟩
        rw [if_pos ends, if_neg refused, if_pos ends, if_neg refused]
      · rw [if_neg ends, if_neg ends]
    · exact (accessible isAccessible).elim

section Records

variable {known later : List ScanEvent}

theorem readsChecked_nil (known : List ScanEvent) :
    input.ReadsChecked known [] := by
  intro front addr back impossible
  simp at impossible

theorem readsChecked_cons {event : ScanEvent}
    (here : ∀ addr, event = .read addr → input.InAccepted known addr)
    (checked : input.ReadsChecked (known ++ [event]) later) :
    input.ReadsChecked known (event :: later) := by
  intro front addr back isSplit
  cases front with
  | nil =>
      obtain ⟨isRead, -⟩ := List.cons.inj isSplit
      rw [List.append_nil]
      exact here addr isRead
  | cons first front =>
      obtain ⟨rfl, isLater⟩ := List.cons.inj isSplit
      have accepted := checked front addr back isLater
      rw [List.append_assoc] at accepted
      exact accepted

theorem readsChecked_read {here : Nat} (accepted : input.InAccepted known here)
    (checked : input.ReadsChecked (known ++ [.read here]) later) :
    input.ReadsChecked known (.read here :: later) := by
  apply readsChecked_cons _ checked
  intro addr isRead
  obtain rfl := ScanEvent.read.inj isRead
  exact accepted

end Records

section Aligned

variable (aligned : input.start % input.elem.align = 0)

include aligned

theorem ptr_add_size_le (index : Nat) :
    input.ptr index + input.elem.size ≤ input.page index + pageSize4k := by
  have startDivides : input.elem.size ∣ input.start := by
    rw [input.sizeIsAlign]
    exact Nat.dvd_of_mod_eq_zero aligned
  have ptrDivides : input.elem.size ∣ input.ptr index :=
    Nat.dvd_add startDivides (Nat.dvd_mul_left _ _)
  have endDivides : input.elem.size ∣ input.page index + pageSize4k := by
    have pageDivides : pageSize4k ∣ input.page index := Nat.dvd_of_mod_eq_zero (alignDown4k_mod _)
    exact Nat.dvd_add (size_dvd_page.trans pageDivides) size_dvd_page
  have below := lt_alignDown4k_add (input.ptr index)
  obtain ⟨ends, isEnds⟩ := endDivides
  obtain ⟨starts, isStarts⟩ := ptrDivides
  change input.ptr index < input.page index + pageSize4k at below
  rw [isEnds, isStarts] at below ⊢
  have next : starts + 1 ≤ ends := Nat.lt_of_mul_lt_mul_left below
  calc
    input.elem.size * starts + input.elem.size =
        input.elem.size * (starts + 1) := (Nat.mul_succ _ _).symm
    _ ≤ input.elem.size * ends := Nat.mul_le_mul_left _ next

theorem Stands.next {len : Nat} (accessible : input.Accessible (input.page len)) :
    input.Stands (input.page len + pageSize4k) (len + 1) := by
  have inside := ptr_add_size_le aligned len
  have ends := accessible.1
  have nextPtr := @ptr_succ input len
  have sizePos := @size_pos input
  have above : input.page len ≤ input.ptr len := alignDown4k_le _
  have onPage : input.page len % pageSize4k = 0 := alignDown4k_mod _
  refine ⟨by omega, ?_⟩
  by_cases leaves : input.ptr (len + 1) = input.page len + pageSize4k
  · left
    unfold page at leaves onPage ⊢
    rw [leaves]
    unfold alignDown4k at onPage ⊢
    unfold pageSize4k at onPage ⊢
    omega
  · have samePage : input.page (len + 1) = input.page len := by
      unfold page alignDown4k pageSize4k at *
      omega
    right
    rw [samePage]
    exact ⟨rfl, accessible⟩

theorem element_of_accessible {index : Nat} (accessible : input.Accessible (input.page index)) :
    ∃ isZero,
      isZeroElement input.aspace input.elem (input.ptr index) =
        some isZero :=
  isSome_element accessible (ptr_add_size_le aligned index)

/-! ## Reads -/

theorem scanEvents_checked (fuel : Nat) {page len : Nat} (stands : input.Stands page len)
    (known : List ScanEvent)
    (isKnown : page = input.page len + pageSize4k → .accepted (input.page len) ∈ known) :
    input.ReadsChecked known (scanEvents input.step fuel page len) := by
  induction fuel generalizing page len known with
  | zero => exact readsChecked_nil known
  | succ fuel ih =>
      rw [scanEvents]
      rcases stands.position with rfl | ⟨rfl, accessible⟩
      · by_cases accessible : input.Accessible (input.page len)
        · rw [step_of_accessible stands.ptrFits accessible]
          refine readsChecked_cons nofun ?_
          apply ih ⟨stands.ptrFits, .inr ⟨rfl, accessible⟩⟩
          intro _
          exact List.mem_append_right _ (List.mem_singleton_self _)
        · rw [step_of_unchecked stands.ptrFits]
          by_cases ends : input.page len + pageSize4k ≤ usizeMax
          · rw [if_pos ends, if_neg fun granted => accessible ⟨ends, granted⟩]
            exact readsChecked_nil known
          · rw [if_neg ends]
            exact readsChecked_nil known
      · obtain ⟨isZero, element⟩ := element_of_accessible aligned accessible
        have here : input.InAccepted known (input.ptr len) :=
          ⟨_, isKnown rfl, accessible, alignDown4k_le _, ptr_add_size_le aligned len⟩
        rw [step_of_checked stands.ptrFits element]
        cases isZero with
        | true => exact readsChecked_read here (readsChecked_nil _)
        | false =>
            apply readsChecked_read here
            apply ih (Stands.next aligned accessible)
            intro samePage
            have same : input.page (len + 1) = input.page len := by omega
            rw [same]
            exact List.mem_append_left _ (isKnown rfl)

/-! ## The result -/

theorem scan_of_passes {page len : Nat} (stands : input.Stands page len)
    (passes : input.Passes len) (fuel : Nat) :
    ∃ left, fuel ≤ left ∧
      input.scan (fuel + 2) page len = input.scan left (input.page len + pageSize4k) (len + 1) := by
  obtain ⟨accessible, notZero⟩ := passes
  obtain ⟨isZero, element⟩ := element_of_accessible aligned accessible
  have isFalse : isZero = false := by
    cases isZero with
    | false => rfl
    | true => exact (notZero element).elim
  subst isFalse
  obtain ⟨left, enough, reached⟩ := scan_of_accessible stands accessible (fuel + 1)
  obtain ⟨left, rfl⟩ := Nat.exists_eq_add_of_le' enough
  refine ⟨left + fuel, Nat.le_add_left _ _, ?_⟩
  rw [reached, ← Nat.add_assoc, scan_succ, step_of_checked stands.ptrFits element]
  rfl

theorem scan_stops (count : Nat) {page len fuel : Nat} (stands : input.Stands page len)
    (passes : ∀ index, len ≤ index → index < len + count → input.Passes index)
    (stops : ¬ input.Passes (len + count)) (enough : 2 * count + 2 ≤ fuel) :
    input.scan fuel page len = input.stopResult (len + count) := by
  induction count generalizing page len fuel with
  | zero =>
      obtain ⟨fuel, rfl⟩ := Nat.exists_eq_add_of_le' enough
      exact scan_of_stop stands stops fuel
  | succ count ih =>
      have first := passes len (Nat.le_refl _) (by omega)
      obtain ⟨fuel, rfl⟩ := Nat.exists_eq_add_of_le' enough
      obtain ⟨left, enoughLeft, reached⟩ :=
        scan_of_passes aligned stands first (fuel + 2 * (count + 1))
      have shift : len + (count + 1) = len + 1 + count := by omega
      rw [shift] at stops ⊢
      refine Eq.trans reached ?_
      apply ih (Stands.next aligned first.1) _ stops
      · omega
      · intro index above below
        exact passes index (by omega) (by omega)

end Aligned

theorem exists_first_stop (input : ScanInput) :
    ∃ index, ¬ input.Passes index ∧ ∀ earlier < index, input.Passes earlier := by
  classical
  have beyond : ¬ input.Passes (usizeMax + 1) := by
    rintro ⟨⟨ends, -⟩, -⟩
    have far : usizeMax + 1 ≤ input.ptr (usizeMax + 1) :=
      Nat.le_add_left_of_le (Nat.le_mul_of_pos_right _ size_pos)
    have inPage := lt_alignDown4k_add (input.ptr (usizeMax + 1))
    change input.ptr (usizeMax + 1) < input.page (usizeMax + 1) + pageSize4k at inPage
    omega
  have exists_stop : ∃ index, ¬ input.Passes index := ⟨_, beyond⟩
  refine ⟨Nat.find exists_stop, Nat.find_spec exists_stop, ?_⟩
  intro earlier before
  exact not_not.mp (Nat.find_min exists_stop before)

theorem call_of_aligned (aligned : input.start % input.elem.align = 0) {index fuel : Nat}
    (passes : ∀ earlier < index, input.Passes earlier)
    (stops : ¬ input.Passes index) (enough : 2 * index + 2 ≤ fuel) :
    input.call fuel = input.stopResult index := by
  have noBits : ¬ input.start &&& (input.elem.align - 1) ≠ 0 :=
    not_not.mpr ((and_pred_eq_zero_iff input.elem.alignPower input.start).mpr aligned)
  have isCall : input.call fuel = input.scan fuel (alignDown4k input.start) 0 := by
    rw [call, checkNullTerminated, if_neg noBits]
    rfl
  rw [← Nat.zero_add index] at stops
  have scanned := scan_stops aligned index (Stands.start input)
      (fun earlier _ before => passes earlier (by omega)) stops enough
  rw [Nat.zero_add] at scanned
  exact isCall.trans scanned

theorem call_of_misaligned (misaligned : input.start % input.elem.align ≠ 0) (fuel : Nat) :
    input.call fuel = .error (.err .EFAULT) := by
  have bits : input.start &&& (input.elem.align - 1) ≠ 0 := by
    rw [ne_eq, and_pred_eq_zero_iff input.elem.alignPower]
    exact misaligned
  rw [call, checkNullTerminated, if_pos bits]

theorem exact_stopResult_iff (aligned : input.start % input.elem.align = 0) {index : Nat}
    (passes : ∀ earlier < index, input.Passes earlier)
    (stops : ¬ input.Passes index) :
    input.Exact (input.stopResult index) ↔
      input.page index + pageSize4k ≤ usizeMax := by
  unfold stopResult
  by_cases ends : input.page index + pageSize4k ≤ usizeMax
  · refine iff_of_true ?_ ends
    rw [if_pos ends]
    by_cases granted :
        input.axmm.checkRegionAccess input.aspace (input.page index)
          (input.page index + pageSize4k) input.accessFlags = true
    · have zero : input.Zero index := by
        by_contra notZero
        exact stops ⟨⟨ends, granted⟩, notZero⟩
      have noFault : ¬ input.FaultsFirst := by
        rintro ⟨other, inaccessible, passesOther⟩
        rcases Nat.lt_trichotomy other index with before | rfl | behind
        · exact inaccessible (passes other before).1
        · exact inaccessible ⟨ends, granted⟩
        · exact (passesOther index behind).2 zero
      rw [if_pos granted]
      refine ⟨?_, fun _ => ⟨index, rfl, zero, ?_⟩⟩
      · refine iff_of_false nofun ?_
        exact not_or.mpr ⟨not_not.mpr aligned, noFault⟩
      · intro earlier before
        exact (passes earlier before).2
    · have faults : input.FaultsFirst := ⟨index, fun accessible => granted accessible.2, passes⟩
      rw [if_neg granted]
      exact ⟨iff_of_true rfl (.inr faults), fun none => (none (.inr faults)).elim⟩
  · refine iff_of_false ?_ ends
    rw [if_neg ends]
    intro exactly
    have faults : input.FaultsFirst := ⟨index, fun accessible => ends accessible.1, passes⟩
    cases exactly.faultIff.mpr (.inr faults)

theorem stopsBelowLastPage_iff {index : Nat} (passes : ∀ earlier < index, input.Passes earlier)
    (stops : ¬ input.Passes index) :
    input.StopsBelowLastPage ↔
      input.page index + pageSize4k ≤ usizeMax := by
  constructor
  · rintro ⟨other, ends, reason⟩
    have notBefore : index ≤ other := by
      by_contra before
      obtain ⟨accessible, notZero⟩ := passes other (by omega)
      exact reason.elim (fun refused => refused accessible) notZero
    have below := @page_mono input index other notBefore
    omega
  · intro ends
    refine ⟨index, ends, ?_⟩
    by_contra neither
    obtain ⟨accessible, notZero⟩ := not_or.mp neither
    exact stops ⟨not_not.mp accessible, notZero⟩

theorem stopResult_ne_outOfFuel (index : Nat) :
    input.stopResult index ≠ .error .outOfFuel := by
  unfold stopResult
  split
  · split
    · nofun
    · nofun
  · nofun

theorem events_checked (fuel : Nat) : input.ReadsChecked [] (input.events fuel) := by
  unfold events
  split
  · exact readsChecked_nil []
  · next noBits =>
      have aligned : input.start % input.elem.align = 0 :=
        (and_pred_eq_zero_iff input.elem.alignPower input.start).mp (not_not.mp noBits)
      refine scanEvents_checked aligned fuel (Stands.start input) [] ?_
      intro isBehind
      have isFirst : input.page 0 = alignDown4k input.start := by
        rw [page, ptr, Nat.zero_mul]
        rfl
      rw [isFirst] at isBehind
      unfold pageSize4k at isBehind
      omega

end ScanInput

/-- For every memory, start and element size, the scan terminates and reads
elements of accepted pages only.  It returns `EFAULT` for a misaligned start
and for an inaccessible page in front of the first zero element, and the index
of this element otherwise, exactly if the start is misaligned or something
stops it below the last page of the address space. -/
theorem checkNullTerminated_exact_iff (input : ScanInput) :
    (∀ fuel, input.ReadsChecked [] (input.events fuel)) ∧
      ∃ enough, ∀ fuel ≥ enough,
        input.call fuel ≠ .error .outOfFuel ∧
          (input.Exact (input.call fuel) ↔
            input.start % input.elem.align ≠ 0 ∨ input.StopsBelowLastPage) := by
  refine ⟨ScanInput.events_checked, ?_⟩
  by_cases aligned : input.start % input.elem.align = 0
  · obtain ⟨index, stops, passes⟩ := ScanInput.exists_first_stop input
    refine ⟨2 * index + 2, ?_⟩
    intro fuel enough
    rw [ScanInput.call_of_aligned aligned passes stops enough,
      ScanInput.exact_stopResult_iff aligned passes stops,
      ScanInput.stopsBelowLastPage_iff passes stops]
    refine ⟨ScanInput.stopResult_ne_outOfFuel index, ?_⟩
    simp [aligned]
  · refine ⟨0, ?_⟩
    intro fuel _
    rw [ScanInput.call_of_misaligned aligned]
    refine ⟨nofun, iff_of_true ⟨?_, ?_⟩ (.inl aligned)⟩
    · exact iff_of_true rfl (.inl aligned)
    · intro none
      exact (none (.inl aligned)).elim

def lastPageInput : ScanInput where
  axmm := { Axmm.reference with checkRegionAccess := fun _ _ _ _ => false }
  aspace := ⟨0, 0, fun _ => none⟩
  elem := .byte
  accessFlags := .readOnly
  start := 0xfffffffffffff000
  startFits := by decide
  sizeIsAlign := rfl
  sizeSmall := by decide
  acceptedMapped := by
    intro page _ accepted
    cases accepted

/-- The kernel panics where the call should return `EFAULT`. -/
theorem checkNullTerminated_panics_in_last_page :
    lastPageInput.start % lastPageInput.elem.align = 0 ∧ lastPageInput.FaultsFirst ∧
      lastPageInput.call 8 = .error .panicked ∧
      ¬ lastPageInput.Exact (lastPageInput.call 8) := by
  have faults : lastPageInput.FaultsFirst := by
    refine ⟨0, ?_, ?_⟩
    · rintro ⟨-, granted⟩
      cases granted
    · intro earlier impossible
      omega
  have panics : lastPageInput.call 8 = .error .panicked := by
    decide +kernel
  refine ⟨rfl, faults, panics, ?_⟩
  rw [panics]
  intro exactly
  cases exactly.faultIff.mpr (.inr faults)

end Vegar.Mm

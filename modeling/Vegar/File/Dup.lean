import Vegar.File.FdSteps

/-!
# Duplicating to a given number

`sys_dup2` and the two duplicating commands of `sys_fcntl`, which the user
tells where the new descriptor should go.  `sys_dup2` takes the number as it
is and panics where the table has no such slot.  `sys_fcntl` never looks at
its third argument, so its lower bound holds only by chance.
-/

namespace Vegar.File

open FdWorld (fdIndex fdIndex_ofNat)

/-! ## Descriptor numbers -/

theorem fdIndex_lt_iff (fd : BitVec 32) :
    fdIndex fd < axFileLimit ↔ 0 ≤ fd.toInt ∧ fd.toInt < axFileLimit := by
  have bounded := fd.isLt
  rw [fdIndex, BitVec.toNat_signExtend, BitVec.toNat_setWidth,
    BitVec.msb_eq_decide, BitVec.toInt_eq_toNat_cond, axFileLimit]
  by_cases negative : 2 ^ (32 - 1) ≤ fd.toNat
  · simp only [negative, decide_true, if_true]
    omega
  · simp only [negative, decide_false, Bool.false_eq_true, if_false]
    omega

/-! ## `sys_dup2` -/

/-- What `dup2` is documented to do: `EBADF` for an old descriptor that is not
open and for a new one that no table can have, and otherwise a change of the
new slot alone. -/
def Dup2Documented (slots : FdSlots) (oldFd newFd : BitVec 32)
    (outcome : Except (Fault LinuxError) (BitVec 32)) (after : FdSlots) :
    Prop :=
  if slots.get (fdIndex oldFd) = none ∨ newFd.toInt < 0 ∨ axFileLimit ≤ newFd.toInt then
    outcome = .error (.err .EBADF) ∧ after = slots
  else
    outcome = .ok newFd ∧ after.get (fdIndex newFd) = slots.get (fdIndex oldFd) ∧
      ∀ id, id ≠ fdIndex newFd → after.get id = slots.get id

section Slots

variable {slots : FdSlots} {oldFd newFd : BitVec 32}

theorem dup2Slot_of_closed (closed : slots.get (fdIndex oldFd) = none) :
    dup2Slot slots oldFd newFd = (.error (.err .EBADF), slots) := by
  simp only [dup2Slot, closed]

theorem dup2Slot_of_inside {ref : FileRef} (isOpen : slots.get (fdIndex oldFd) = some ref)
    (inside : fdIndex newFd < axFileLimit) :
    ∃ after, dup2Slot slots oldFd newFd = (.ok (.fd newFd), after) ∧
      ∀ asked, after.get asked =
        if fdIndex newFd = asked then some ref else slots.get asked := by
  by_cases same : oldFd = newFd
  · subst same
    refine ⟨slots, by simp only [dup2Slot, isOpen, if_pos], ?_⟩
    intro asked
    by_cases here : fdIndex oldFd = asked
    · rw [if_pos here, ← here, isOpen]
    · rw [if_neg here]
  · have free :
        fdIndex newFd < axFileLimit ∧ (closeSlot slots newFd).2.get (fdIndex newFd) = none := by
      rw [get_closeSlot, if_pos rfl]
      exact ⟨inside, rfl⟩
    refine ⟨(closeSlot slots newFd).2.setSlot (fdIndex newFd) (some ref), ?_, ?_⟩
    · simp only [dup2Slot, isOpen, if_neg same, FlattenObjects.addAt, if_pos free]
    · intro asked
      rw [FlattenObjects.get_setSlot _ inside, get_closeSlot]
      by_cases here : fdIndex newFd = asked
      · rw [if_pos here, if_pos here]
      · rw [if_neg here, if_neg here, if_neg here]

theorem dup2Slot_of_outside {ref : FileRef} (isOpen : slots.get (fdIndex oldFd) = some ref)
    (outside : ¬ fdIndex newFd < axFileLimit) :
    dup2Slot slots oldFd newFd = (.error .panicked, (closeSlot slots newFd).2) := by
  have different : oldFd ≠ newFd := by
    intro same
    subst same
    exact outside (FlattenObjects.lt_of_get_eq_some isOpen)
  have notFree :
      ¬ (fdIndex newFd < axFileLimit ∧ (closeSlot slots newFd).2.get (fdIndex newFd) = none) :=
    fun free => outside free.1
  simp only [dup2Slot, isOpen, if_neg different, FlattenObjects.addAt, if_neg notFree]

end Slots

theorem sysDup2_of_dup2Slot {world : FdWorld} {table : Nat} (known : table < world.tables.length)
    {oldFd newFd : BitVec 32}
    (outcome : Except (Fault LinuxError) (BitVec 32)) {after : FdSlots}
    (called : dup2Slot (world.tableAt table) oldFd newFd = (outcome.map .fd, after)) :
    (world.sysDup2 table oldFd newFd).1 = outcome ∧
      (world.sysDup2 table oldFd newFd).2.tableAt table = after := by
  rw [dup2Slot_eq known] at called
  obtain ⟨sameOutcome, sameTable⟩ := Prod.mk.inj called
  refine ⟨?_, sameTable⟩
  cases returned : (world.sysDup2 table oldFd newFd).1 with
  | ok fd =>
      rw [returned] at sameOutcome
      cases outcome with
      | error fault => cases sameOutcome
      | ok expected =>
          rw [FdValue.fd.inj (Except.ok.inj sameOutcome)]
  | error fault =>
      rw [returned] at sameOutcome
      cases outcome with
      | ok expected => cases sameOutcome
      | error expected => rw [Except.error.inj sameOutcome]

theorem not_dup2Documented_of_panicked {slots after : FdSlots} {oldFd newFd : BitVec 32} :
    ¬ Dup2Documented slots oldFd newFd (.error .panicked) after := by
  unfold Dup2Documented
  split
  · exact fun documented => nomatch documented.1
  · exact fun documented => nomatch documented.1

/-- `sys_dup2` does what is documented exactly where the old descriptor is not
open or the new one is the number of a slot. -/
theorem sysDup2_documented_iff (world : FdWorld) (table : Nat) (known : table < world.tables.length)
    (oldFd newFd : BitVec 32) :
    Dup2Documented (world.tableAt table) oldFd newFd (world.sysDup2 table oldFd newFd).1
        ((world.sysDup2 table oldFd newFd).2.tableAt table) ↔
      (world.tableAt table).get (fdIndex oldFd) = none ∨
        (0 ≤ newFd.toInt ∧ newFd.toInt < axFileLimit) := by
  cases isOpen : (world.tableAt table).get (fdIndex oldFd) with
  | none =>
      obtain ⟨failed, sameTable⟩ :=
        sysDup2_of_dup2Slot known (.error (.err .EBADF)) (dup2Slot_of_closed isOpen)
      refine iff_of_true ?_ (Or.inl rfl)
      rw [Dup2Documented, if_pos (Or.inl isOpen)]
      exact ⟨failed, sameTable⟩
  | some ref =>
      rw [← fdIndex_lt_iff]
      by_cases inside : fdIndex newFd < axFileLimit
      · obtain ⟨after, duplicated, slotsAfter⟩ := dup2Slot_of_inside isOpen inside
        obtain ⟨succeeded, sameTable⟩ := sysDup2_of_dup2Slot known (.ok newFd) duplicated
        obtain ⟨notNegative, belowLimit⟩ := (fdIndex_lt_iff newFd).mp inside
        have valid :
            ¬ ((world.tableAt table).get (fdIndex oldFd) = none ∨
              newFd.toInt < 0 ∨ axFileLimit ≤ newFd.toInt) := by
          rintro (closed | negative | tooLarge)
          · rw [isOpen] at closed
            cases closed
          · omega
          · omega
        refine iff_of_true ?_ (Or.inr inside)
        rw [Dup2Documented, if_neg valid, sameTable]
        refine ⟨succeeded, ?_, ?_⟩
        · rw [slotsAfter, if_pos rfl, isOpen]
        · intro id different
          rw [slotsAfter, if_neg (Ne.symm different)]
      · obtain ⟨panicked, -⟩ :=
          sysDup2_of_dup2Slot known (.error .panicked) (dup2Slot_of_outside isOpen inside)
        refine iff_of_false ?_ ?_
        · rw [panicked]
          exact not_dup2Documented_of_panicked
        · rintro (closed | isInside)
          · cases closed
          · exact inside isInside

def oneDescriptor : FdWorld where
  strong := Function.update (fun _ => 0) (.other 0) 1
  bufferStrong := fun _ => 0
  files := 1
  pipes := 0
  tables := [FlattenObjects.new.setSlot 0 (some (.other 0))]
  processes := [⟨0, 1⟩]

theorem get_oneDescriptor (id : Nat) :
    (oneDescriptor.tableAt 0).get id =
      if 0 = id then some (.other 0) else none := by
  have inside : 0 < axFileLimit := by decide
  change (FlattenObjects.new.setSlot 0 (some (FileRef.other 0))).get id = _
  rw [FlattenObjects.get_setSlot _ inside, FlattenObjects.get_new]

/-- `dup2(0, 5)`. -/
theorem sysDup2_documented_iff_five :
    0 < oneDescriptor.tables.length ∧
      Dup2Documented (oneDescriptor.tableAt 0) 0 5 (oneDescriptor.sysDup2 0 0 5).1
        ((oneDescriptor.sysDup2 0 0 5).2.tableAt 0) := by
  have known : 0 < oneDescriptor.tables.length := by decide
  refine ⟨known, ?_⟩
  exact (sysDup2_documented_iff oneDescriptor 0 known 0 5).mpr (Or.inr (by decide))

/-- `dup2(0, -1)` panics. -/
theorem sysDup2_panics_on_minus_one :
    (oneDescriptor.tableAt 0).get (fdIndex 0) = some (.other 0) ∧
      (oneDescriptor.sysDup2 0 0 (-1)).1 = .error .panicked ∧
      ¬ Dup2Documented (oneDescriptor.tableAt 0) 0 (-1) (oneDescriptor.sysDup2 0 0 (-1)).1
        ((oneDescriptor.sysDup2 0 0 (-1)).2.tableAt 0) := by
  have isOpen : (oneDescriptor.tableAt 0).get (fdIndex 0) = some (.other 0) := by
    rw [get_oneDescriptor]
    rfl
  have outside : ¬ fdIndex (-1) < axFileLimit := by decide
  obtain ⟨panicked, -⟩ :=
    sysDup2_of_dup2Slot (by decide) (.error .panicked) (dup2Slot_of_outside isOpen outside)
  refine ⟨isOpen, panicked, ?_⟩
  rw [panicked]
  exact not_dup2Documented_of_panicked

/-! ## `F_DUPFD` -/

/-- What `F_DUPFD` is documented to do: the smallest free number from `arg` on
refers to the file, or `EMFILE` if there is none. -/
def DupFdDocumented (slots : FdSlots) (fd : BitVec 32) (arg : Nat)
    (outcome : LinuxResult (BitVec 32)) (after : FdSlots) : Prop :=
  (∃ id, arg ≤ id ∧ id < axFileLimit ∧ slots.get id = none ∧
      (∀ lower, arg ≤ lower → lower < id → slots.get lower ≠ none) ∧
      outcome = .ok (.ofNat 32 id) ∧
      after.get id = slots.get (fdIndex fd) ∧
      ∀ other, other ≠ id → after.get other = slots.get other) ∨
    ((∀ id, arg ≤ id → id < axFileLimit → slots.get id ≠ none) ∧
      outcome = .error .EMFILE ∧ after = slots)

theorem dupFd_of_open {allocator : IdAllocator FileRef axFileLimit} {world : FdWorld}
    {table : Nat} (known : table < world.tables.length)
    {fd : BitVec 32} {ref : FileRef}
    (isOpen : (world.tableAt table).get (fdIndex fd) = some ref) :
    (world.dupFd allocator table fd).1 = (addSlot allocator (world.tableAt table) ref).1 ∧
      (world.dupFd allocator table fd).2.tableAt table =
        (addSlot allocator (world.tableAt table) ref).2 := by
  simp only [FdWorld.dupFd, FdWorld.getFileLike, isOpen]
  exact @addFileLike_eq_addSlot allocator (world.retain ref) table known ref

/-- The duplicating commands of `sys_fcntl` do what is documented exactly
where every number below the bound is taken. -/
theorem sysFcntl_dupFd_documented_iff
    (world : FdWorld) (table : Nat) (known : table < world.tables.length)
    (fd cmd : BitVec 32) (duplicates : cmd = FdWorld.fDupFd ∨
      cmd = FdWorld.fDupFdCloexec) (ref : FileRef)
    (isOpen : (world.tableAt table).get (fdIndex fd) = some ref)
    (arg : Nat) (bounded : arg < axFileLimit) :
    DupFdDocumented (world.tableAt table) fd arg
        (world.sysFcntl (.smallest FileRef axFileLimit) table fd cmd).1
        ((world.sysFcntl (.smallest FileRef axFileLimit) table fd cmd).2.tableAt table) ↔
      ∀ id < arg, (world.tableAt table).get id ≠ none := by
  obtain ⟨sameOutcome, sameTable⟩ :=
    @dupFd_of_open (.smallest FileRef axFileLimit) world table known fd ref isOpen
  rw [FdWorld.sysFcntl, if_pos duplicates, sameOutcome, sameTable]
  generalize world.tableAt table = slots at isOpen
  cases picked : (IdAllocator.smallest FileRef axFileLimit).pick slots with
  | none =>
      have full := (IdAllocator.smallest FileRef axFileLimit).pickFull slots picked
      simp only [addSlot, picked]
      refine iff_of_true (Or.inr ⟨?_, rfl, rfl⟩) ?_
      · intro id _ inside
        exact full id inside
      · intro id below
        exact full id (Nat.lt_trans below bounded)
  | some id =>
      obtain ⟨inside, free, earlier⟩ := IdAllocator.smallest_pick_eq_some.mp picked
      simp only [addSlot, picked]
      constructor
      · rintro (⟨expected, fromArg, expectedInside, -, -, sameFd, -, -⟩ | ⟨-, failed, -⟩)
        · have sameNumber : id = expected := by
            have sameIndex := congrArg fdIndex (Except.ok.inj sameFd)
            rwa [fdIndex_ofNat inside, fdIndex_ofNat expectedInside] at sameIndex
          intro lower below
          exact earlier lower (by omega)
        · cases failed
      · intro taken
        have fromArg : arg ≤ id := by
          by_contra below
          exact taken id (Nat.lt_of_not_le below) free
        refine Or.inl ⟨id, fromArg, inside, free, ?_, rfl, ?_, ?_⟩
        · intro lower _ below
          exact earlier lower below
        · rw [FlattenObjects.get_setSlot _ inside, if_pos rfl, isOpen]
        · intro other different
          rw [FlattenObjects.get_setSlot _ inside, if_neg (Ne.symm different)]

/-- `fcntl(0, F_DUPFD, 1)` with descriptor 0 alone. -/
theorem sysFcntl_dupFd_documented_iff_one :
    0 < oneDescriptor.tables.length ∧ (oneDescriptor.tableAt 0).get (fdIndex 0) = some (.other 0) ∧
      1 < axFileLimit ∧
      DupFdDocumented (oneDescriptor.tableAt 0) 0 1
        (oneDescriptor.sysFcntl (.smallest FileRef axFileLimit) 0 0 FdWorld.fDupFd).1
        ((oneDescriptor.sysFcntl (.smallest FileRef axFileLimit) 0 0
          FdWorld.fDupFd).2.tableAt 0) := by
  have known : 0 < oneDescriptor.tables.length := by decide
  have isOpen : (oneDescriptor.tableAt 0).get (fdIndex 0) = some (.other 0) := by
    rw [get_oneDescriptor]
    rfl
  refine ⟨known, isOpen, by decide, ?_⟩
  apply (sysFcntl_dupFd_documented_iff oneDescriptor 0 known 0 FdWorld.fDupFd
      (Or.inl rfl) (.other 0) isOpen 1 (by decide)).mpr
  intro id below
  obtain rfl : id = 0 := by omega
  rw [get_oneDescriptor, if_pos rfl]
  exact nofun

/-- `fcntl(0, F_DUPFD, 10)` with descriptor 0 alone returns 1. -/
theorem sysFcntl_dupFd_below_bound :
    (oneDescriptor.tableAt 0).get (fdIndex 0) = some (.other 0) ∧
      (oneDescriptor.sysFcntl (.smallest FileRef axFileLimit) 0 0 FdWorld.fDupFd).1 = .ok 1 ∧
      ¬ DupFdDocumented (oneDescriptor.tableAt 0) 0 10
        (oneDescriptor.sysFcntl (.smallest FileRef axFileLimit) 0 0 FdWorld.fDupFd).1
        ((oneDescriptor.sysFcntl (.smallest FileRef axFileLimit) 0 0
          FdWorld.fDupFd).2.tableAt 0) := by
  have isOpen : (oneDescriptor.tableAt 0).get (fdIndex 0) = some (.other 0) := by
    rw [get_oneDescriptor]
    rfl
  have picked :
      (IdAllocator.smallest FileRef axFileLimit).pick (oneDescriptor.tableAt 0) = some 1 := by
    refine IdAllocator.smallest_pick_eq_some.mpr ⟨by decide, ?_, ?_⟩
    · rw [get_oneDescriptor]
      rfl
    · intro lower below
      obtain rfl : lower = 0 := by omega
      rw [get_oneDescriptor, if_pos rfl]
      exact nofun
  obtain ⟨sameOutcome, -⟩ :=
    @dupFd_of_open (.smallest FileRef axFileLimit) oneDescriptor 0 (by decide) 0 (.other 0) isOpen
  have returned :
      (oneDescriptor.sysFcntl (.smallest FileRef axFileLimit) 0 0 FdWorld.fDupFd).1 = .ok 1 := by
    rw [FdWorld.sysFcntl, if_pos (Or.inl rfl), sameOutcome]
    simp only [addSlot, picked]
    rfl
  refine ⟨isOpen, returned, ?_⟩
  rw [returned]
  rintro (⟨id, fromArg, inside, -, -, sameFd, -, -⟩ | ⟨-, failed, -⟩)
  · have sameIndex := congrArg fdIndex (Except.ok.inj sameFd)
    rw [fdIndex_ofNat inside] at sameIndex
    have isOne : fdIndex 1 = 1 := by decide
    omega
  · cases failed

end Vegar.File

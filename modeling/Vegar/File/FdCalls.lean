import Vegar.File.FdSurvival

/-!
# Descriptor calls and the ledger

Each call on a table changes no other table and no process, and ends with the
ledger balanced.  Copying a table gives the same table again; clearing one
leaves it empty.
-/

namespace Vegar.File

namespace FdWorld

structure OnlyTable (table : Nat) (before after : FdWorld) : Prop where
  processes : after.processes = before.processes
  length : after.tables.length = before.tables.length
  others : ∀ other, other ≠ table → after.tables[other]? = before.tables[other]?

namespace OnlyTable

variable {table : Nat} {before between after : FdWorld}

theorem refl (world : FdWorld) : OnlyTable table world world := ⟨rfl, rfl, fun _ _ => rfl⟩

theorem trans (first : OnlyTable table before between) (second : OnlyTable table between after) :
    OnlyTable table before after where
  processes := second.processes.trans first.processes
  length := second.length.trans first.length
  others other different := (second.others other different).trans (first.others other different)

theorem of_tables_eq (sameTables : after.tables = before.tables)
    (sameProcesses : after.processes = before.processes) :
    OnlyTable table before after where
  processes := sameProcesses
  length := by rw [sameTables]
  others _ _ := by rw [sameTables]

theorem tableAt_eq (only : OnlyTable table before after) {other : Nat} (different : other ≠ table) :
    after.tableAt other = before.tableAt other := by
  rw [tableAt, only.others other different, tableAt]

theorem setSlot (world : FdWorld) (id : Nat) (content : Option FileRef) :
    OnlyTable table world (world.setSlot table id content) where
  processes := rfl
  length := tables_length_setSlot world table id content
  others other different := by
    simp [FdWorld.setSlot, Ne.symm different]

end OnlyTable

@[simp]
theorem release_tables (world : FdWorld) (ref : FileRef) :
    (world.release ref).tables = world.tables := by
  unfold release
  by_cases last : world.strong ref = 1
  · cases ref <;> simp [last, dropEnd]
  · simp [last]

@[simp]
theorem release_processes (world : FdWorld) (ref : FileRef) :
    (world.release ref).processes = world.processes := by
  unfold release
  by_cases last : world.strong ref = 1
  · cases ref <;> simp [last, dropEnd]
  · simp [last]

@[simp]
theorem tableAt_release (world : FdWorld) (ref : FileRef) (table : Nat) :
    (world.release ref).tableAt table = world.tableAt table := by
  rw [tableAt, release_tables, tableAt]

section Release

variable {table : Nat}

theorem OnlyTable.release (world : FdWorld) (ref : FileRef) :
    OnlyTable table world (world.release ref) :=
  .of_tables_eq (release_tables world ref) (release_processes world ref)

theorem OnlyTable.retain (world : FdWorld) (ref : FileRef) :
    OnlyTable table world (world.retain ref) :=
  .of_tables_eq rfl rfl

end Release

/-! ## Calls on one table -/

/-- A part of a call on one table ends with `held` and `bare` in the
variables of the call. -/
structure Leaves (table bound : Nat) (before after : FdWorld)
    (held : List FileRef) (bare : List Nat) : Prop where
  balanced : after.Balanced held bare
  only : OnlyTable table before after
  stays : StaysDropped bound before after

namespace Leaves

variable {table bound : Nat} {before between after : FdWorld}
  {held heldBetween : List FileRef} {bare bareBetween : List Nat}
  {ref : FileRef}

theorem known (leaves : Leaves table bound before after held bare)
    (known : table < before.tables.length) :
    table < after.tables.length := by
  rw [leaves.only.length]
  exact known

theorem trans (first : Leaves table bound before between heldBetween bareBetween)
    (second : Leaves table bound between after held bare) :
    Leaves table bound before after held bare :=
  ⟨second.balanced, first.only.trans second.only, first.stays.trans second.stays⟩

theorem refl (balanced : before.Balanced held bare) :
    Leaves table bound before before held bare :=
  ⟨balanced, .refl before, .refl before⟩

theorem release (balanced : before.Balanced (ref :: held) bare) :
    Leaves table bound before (before.release ref) held bare :=
  ⟨balanced.release, .release before ref, release_staysDropped before ref⟩

theorem putSlot (balanced : before.Balanced (ref :: held) bare)
    (known : table < before.tables.length)
    {id : Nat} (inside : id < axFileLimit)
    (free : (before.tableAt table).get id = none) :
    Leaves table bound before (before.setSlot table id (some ref)) held bare :=
  ⟨balanced.putSlot known inside free, .setSlot before id (some ref),
    setSlot_staysDropped before table id (some ref)⟩

theorem clearSlot (balanced : before.Balanced held bare)
    (known : table < before.tables.length) {id : Nat}
    (found : (before.tableAt table).get id = some ref) :
    Leaves table bound before ((before.setSlot table id none).release ref) held
      bare :=
  ⟨(balanced.takeSlot known found).release,
    (OnlyTable.setSlot before id none).trans (.release _ ref),
    (setSlot_staysDropped before table id none).trans (release_staysDropped _ ref)⟩

end Leaves

section Calls

variable {allocator : IdAllocator FileRef axFileLimit} {world : FdWorld} {bound table : Nat}
  {held : List FileRef} {bare : List Nat}

theorem getFileLike_ok (bound : Nat) (balanced : world.Balanced held bare)
    (known : table < world.tables.length)
    {fd : BitVec 32} {ref : FileRef} {after : FdWorld}
    (got : world.getFileLike table fd = (.ok ref, after)) :
    Leaves table bound world after (ref :: held) bare := by
  unfold getFileLike at got
  cases found : (world.tableAt table).get (fdIndex fd) with
  | none =>
      simp [found] at got
  | some content =>
      simp only [found, Prod.mk.injEq, Except.ok.injEq] at got
      obtain ⟨rfl, rfl⟩ := got
      have alive := balanced.strong_pos known found
      exact ⟨balanced.retain alive, .retain world content, retain_staysDropped alive⟩

theorem getFileLike_error {fd : BitVec 32} {error : LinuxError} {after : FdWorld}
    (got : world.getFileLike table fd = (.error error, after)) :
    after = world := by
  unfold getFileLike at got
  cases found : (world.tableAt table).get (fdIndex fd) with
  | none =>
      simp only [found, Prod.mk.injEq] at got
      exact got.2.symm
  | some content =>
      simp [found] at got

theorem addFileLike_leaves {ref : FileRef} (balanced : world.Balanced (ref :: held) bare)
    (known : table < world.tables.length) :
    Leaves table bound world (world.addFileLike allocator table ref).2
      held bare := by
  unfold addFileLike
  cases picked : allocator.pick (world.tableAt table) with
  | none =>
      exact .release balanced
  | some id =>
      obtain ⟨inside, free⟩ := allocator.pickFree _ id picked
      exact .putSlot balanced known inside free

theorem addFileLike_ok_counters {ref : FileRef} {fd : BitVec 32} {after : FdWorld}
    (added : world.addFileLike allocator table ref = (.ok fd, after)) :
    after.strong = world.strong ∧ after.pipes = world.pipes := by
  unfold addFileLike at added
  cases picked : allocator.pick (world.tableAt table) with
  | none =>
      simp [picked] at added
  | some id =>
      simp only [picked, Prod.mk.injEq] at added
      obtain ⟨-, rfl⟩ := added
      exact ⟨rfl, rfl⟩

theorem closeFileLike_leaves (bound : Nat) (balanced : world.Balanced held bare)
    (known : table < world.tables.length) (fd : BitVec 32) :
    Leaves table bound world (world.closeFileLike table fd).2 held bare := by
  unfold closeFileLike
  cases found : (world.tableAt table).get (fdIndex fd) with
  | none =>
      exact .refl balanced
  | some ref =>
      exact .clearSlot balanced known found

theorem dupFd_leaves (balanced : world.Balanced held bare)
    (known : table < world.tables.length) (oldFd : BitVec 32) :
    Leaves table bound world (world.dupFd allocator table oldFd).2 held bare := by
  unfold dupFd
  cases got : world.getFileLike table oldFd with
  | mk result after =>
      cases result with
      | error error =>
          rw [getFileLike_error got]
          exact .refl balanced
      | ok ref =>
          have taken := getFileLike_ok bound balanced known got
          exact taken.trans (addFileLike_leaves taken.balanced (taken.known known))

theorem addAt_leaves {ref : FileRef} (balanced : world.Balanced (ref :: held) bare)
    (known : table < world.tables.length)
    {id : Nat} {after : FdWorld}
    (added : world.addAt table id ref = some after) :
    Leaves table bound world after held bare := by
  unfold addAt at added
  by_cases free : id < axFileLimit ∧ (world.tableAt table).get id = none
  · simp only [if_pos free, Option.some.injEq] at added
    subst added
    exact .putSlot balanced known free.1 free.2
  · simp [free] at added

theorem sysDup2_leaves (balanced : world.Balanced held bare) (known : table < world.tables.length)
    {oldFd newFd : BitVec 32} {after : FdWorld}
    {result : Except (Fault LinuxError) (BitVec 32)}
    (called : world.sysDup2 table oldFd newFd = (result, after))
    (returned : result ≠ .error .panicked) :
    Leaves table bound world after held bare := by
  unfold sysDup2 at called
  cases got : world.getFileLike table oldFd with
  | mk found cloned =>
      cases found with
      | error error =>
          simp only [got, Prod.mk.injEq] at called
          obtain ⟨-, rfl⟩ := called
          rw [getFileLike_error got]
          exact .refl balanced
      | ok ref =>
          have taken := getFileLike_ok bound balanced known got
          simp only [got] at called
          by_cases same : oldFd = newFd
          · simp only [if_pos same, Prod.mk.injEq] at called
            obtain ⟨-, rfl⟩ := called
            exact taken.trans (.release taken.balanced)
          · simp only [if_neg same] at called
            have cleared := closeFileLike_leaves bound taken.balanced (taken.known known) newFd
            cases added : (cloned.closeFileLike table newFd).2.addAt table (fdIndex newFd) ref with
            | none =>
                simp only [added, Prod.mk.injEq] at called
                exact (returned called.1.symm).elim
            | some final =>
                simp only [added, Prod.mk.injEq] at called
                obtain ⟨-, rfl⟩ := called
                exact (taken.trans cleared).trans
                  (addAt_leaves cleared.balanced (cleared.known (taken.known known)) added)

theorem sysFcntl_leaves (balanced : world.Balanced held bare)
    (known : table < world.tables.length) (fd cmd : BitVec 32) :
    Leaves table bound world (world.sysFcntl allocator table fd cmd).2
      held bare := by
  unfold sysFcntl
  by_cases duplicates : cmd = fDupFd ∨ cmd = fDupFdCloexec
  · rw [if_pos duplicates]
    exact dupFd_leaves balanced known fd
  · rw [if_neg duplicates]
    by_cases setsFlags : cmd = fSetFl
    · rw [if_pos setsFlags]
      by_cases standard : fd = 0 ∨ fd = 1 ∨ fd = 2
      · rw [if_pos standard]
        exact .refl balanced
      · rw [if_neg standard]
        cases got : world.getFileLike table fd with
        | mk result after =>
            cases result with
            | error error =>
                rw [getFileLike_error got]
                exact .refl balanced
            | ok ref =>
                have taken := getFileLike_ok bound balanced known got
                exact taken.trans (.release taken.balanced)
    · rw [if_neg setsFlags]
      exact .refl balanced

theorem openFile_leaves (balanced : world.Balanced held bare)
    (known : table < world.tables.length) :
    Leaves table bound world (world.openFile allocator table).2 held bare := by
  have made : Leaves table bound world world.newFile (.other world.files :: held) bare :=
    ⟨balanced.newFile, .of_tables_eq rfl rfl,
      StaysDropped.of_update rfl rfl fun _ _ isRef => by cases isRef⟩
  exact made.trans (addFileLike_leaves made.balanced (made.known known))

private theorem addEnd_leaves {pipe : Nat} {readable : Bool} (fresh : bound ≤ pipe)
    (balanced : world.Balanced held (pipe :: bare))
    (made : pipe < world.pipes)
    (unused : world.strong (.pipeEnd pipe readable) = 0)
    (known : table < world.tables.length) :
    Leaves table bound world
      ((world.newArc (.pipeEnd pipe readable)).addFileLike allocator table
        (.pipeEnd pipe readable)).2 held bare := by
  have wrapped :
      Leaves table bound world (world.newArc (.pipeEnd pipe readable))
        (.pipeEnd pipe readable :: held) bare :=
    ⟨balanced.newArc made unused, .of_tables_eq rfl rfl, newArc_staysDropped fresh readable⟩
  exact wrapped.trans (addFileLike_leaves wrapped.balanced (wrapped.known known))

theorem sysPipe2_leaves (balanced : world.Balanced held [])
    (known : table < world.tables.length) (fds : LinuxResult Unit) :
    Leaves table world.pipes world (world.sysPipe2 allocator table fds).2 held [] := by
  cases fds with
  | error error =>
      exact .refl balanced
  | ok valid =>
      have made :
          Leaves table world.pipes world world.newPipe held [world.pipes, world.pipes] :=
        ⟨balanced.newPipe, .of_tables_eq rfl rfl, Nat.le_succ _, fun _ _ _ gone => gone⟩
      have unusedAt : ∀ readable, world.newPipe.strong (.pipeEnd world.pipes readable) = 0 :=
        fun readable =>
          balanced.freshPipe world.pipes readable (Nat.le_refl _)
      have readAdded := made.trans
          (@addEnd_leaves allocator _ _ table _ _ _ _ (Nat.le_refl _) made.balanced
            (Nat.lt_succ_self _) (unusedAt true) (made.known known))
      simp only [sysPipe2]
      cases addedRead :
          (world.newPipe.newArc (.pipeEnd world.pipes true)).addFileLike
            allocator table (.pipeEnd world.pipes true) with
      | mk readResult afterRead =>
          rw [addedRead] at readAdded
          cases readResult with
          | error error =>
              exact readAdded.trans
                ⟨readAdded.balanced.dropEnd, .of_tables_eq rfl rfl, .of_counters_eq rfl rfl⟩
          | ok readFd =>
              have unchanged := addFileLike_ok_counters addedRead
              have stillUnused : afterRead.strong (.pipeEnd world.pipes false) = 0 := by
                rw [unchanged.1]
                change Function.update world.newPipe.strong (.pipeEnd world.pipes true) 1
                  (.pipeEnd world.pipes false) = 0
                rw [Function.update_of_ne (by simp)]
                exact unusedAt false
              have stillMade : world.pipes < afterRead.pipes := by
                rw [unchanged.2]
                exact Nat.lt_succ_self _
              have writeAdded := readAdded.trans
                  (@addEnd_leaves allocator _ _ table _ _ _ _ (Nat.le_refl _)
                    readAdded.balanced stillMade stillUnused
                    (readAdded.known known))
              simp only
              cases addedWrite :
                  (afterRead.newArc (.pipeEnd world.pipes false)).addFileLike
                    allocator table (.pipeEnd world.pipes false) with
              | mk writeResult afterWrite =>
                  rw [addedWrite] at writeAdded
                  cases writeResult with
                  | ok writeFd =>
                      exact writeAdded
                  | error error =>
                      have undone := writeAdded.trans
                          (closeFileLike_leaves _ writeAdded.balanced
                            (writeAdded.known known) readFd)
                      simp only
                      cases closing : afterWrite.closeFileLike table readFd with
                      | mk closeResult afterClose =>
                          rw [closing] at undone
                          cases closeResult with
                          | ok closed => exact undone
                          | error impossible => exact undone

theorem addFileLike_of_free {ref : FileRef} {id : Nat} (inside : id < axFileLimit)
    (free : (world.tableAt table).get id = none) :
    ∃ picked,
      picked < axFileLimit ∧
        (world.addFileLike allocator table ref) =
          (.ok (.ofNat 32 picked), world.setSlot table picked (some ref)) := by
  cases pick : allocator.pick (world.tableAt table) with
  | none =>
      exact (allocator.pickFull _ pick id inside free).elim
  | some picked =>
      refine ⟨picked, (allocator.pickFree _ picked pick).1, ?_⟩
      rw [addFileLike, pick]

theorem sysPipe2_of_free (known : table < world.tables.length)
    {first second : Nat} (different : first ≠ second)
    (firstInside : first < axFileLimit) (secondInside : second < axFileLimit)
    (firstFree : (world.tableAt table).get first = none)
    (secondFree : (world.tableAt table).get second = none) :
    (world.sysPipe2 allocator table (.ok ())).1 = .ok 0 ∧
      ∀ readable,
        (world.sysPipe2 allocator table (.ok ())).2.strong (.pipeEnd world.pipes readable) = 1 := by
  obtain ⟨readId, readInside, addedRead⟩ :=
    @addFileLike_of_free allocator (world.newPipe.newArc (.pipeEnd world.pipes true)) table
      (.pipeEnd world.pipes true) first firstInside firstFree
  have stillFree :
      ∃ id, id < axFileLimit ∧
        (((world.newPipe.newArc (.pipeEnd world.pipes true)).setSlot table
          readId (some (.pipeEnd world.pipes true))).tableAt table).get id =
            none := by
    have slots :=
      @tableAt_setSlot_self (world.newPipe.newArc (.pipeEnd world.pipes true)) table known
        readId (some (.pipeEnd world.pipes true))
    by_cases taken : readId = first
    · refine ⟨second, secondInside, ?_⟩
      rw [slots, FlattenObjects.get_setSlot _ readInside, if_neg (by omega)]
      exact secondFree
    · refine ⟨first, firstInside, ?_⟩
      rw [slots, FlattenObjects.get_setSlot _ readInside, if_neg taken]
      exact firstFree
  obtain ⟨id, inside, free⟩ := stillFree
  obtain ⟨writeId, -, addedWrite⟩ := @addFileLike_of_free allocator
      (((world.newPipe.newArc (.pipeEnd world.pipes true)).setSlot table
        readId (some (.pipeEnd world.pipes true))).newArc (.pipeEnd world.pipes false)) table
      (.pipeEnd world.pipes false) id inside free
  simp only [sysPipe2, addedRead, addedWrite, true_and]
  intro readable
  cases readable <;> simp [setSlot, newArc]

end Calls

/-! ## Copying a table -/

section Copy

variable {source : FdSlots} {bound : Nat}

private theorem strong_retain_pos {world : FdWorld} {ref other : FileRef}
    (alive : 0 < world.strong other) :
    0 < (world.retain ref).strong other := by
  change 0 < Function.update world.strong ref _ other
  by_cases same : other = ref
  · subst same
    rw [Function.update_self]
    exact Nat.succ_pos _
  · rw [Function.update_of_ne same]
    exact alive

private theorem copySlots_spec (ids : List Nat) {world : FdWorld} {target : FdSlots}
    {held : List FileRef} {bare : List Nat}
    (balanced : world.Balanced held bare)
    (distinct : ids.Nodup)
    (free : ∀ id ∈ ids, target.get id = none)
    (alive : ∀ id ref, source.get id = some ref → 0 < world.strong ref) :
    ∃ heldAfter,
      (copySlots source ids (world, target)).1.Balanced heldAfter bare ∧
        (∀ ref,
          heldAfter.count ref + target.count ref =
            held.count ref + (copySlots source ids (world, target)).2.count ref) ∧
        (copySlots source ids (world, target)).1.tables = world.tables ∧
        (copySlots source ids (world, target)).1.processes = world.processes ∧
        StaysDropped bound world (copySlots source ids (world, target)).1 ∧
        ∀ asked,
          (copySlots source ids (world, target)).2.get asked =
            if asked ∈ ids ∧ (source.get asked).isSome then
              source.get asked
            else target.get asked := by
  induction ids generalizing world target held with
  | nil =>
      exact ⟨held, balanced, fun _ => rfl, rfl, rfl, .refl world, fun _ => by
        simp [copySlots]⟩
  | cons id rest ih =>
      obtain ⟨notAgain, restDistinct⟩ := List.nodup_cons.mp distinct
      cases found : source.get id with
      | none =>
          obtain ⟨heldAfter, after, counts, tables, processes, stays, gets⟩ :=
            ih balanced restDistinct (fun later member =>
                free later (List.mem_cons_of_mem _ member)) alive
          simp only [copySlots, found]
          refine ⟨heldAfter, after, counts, tables, processes, stays, ?_⟩
          intro asked
          rw [gets asked]
          by_cases isHere : asked = id
          · subst isHere
            simp [found]
          · simp [isHere]
      | some ref =>
          have inside : id < axFileLimit := FlattenObjects.lt_of_get_eq_some found
          have freeHere := free id List.mem_cons_self
          have added : target.addAt id ref = some (target.setSlot id (some ref)) := by
            rw [FlattenObjects.addAt, if_pos ⟨inside, freeHere⟩]
          have stillFree : ∀ later ∈ rest, (target.setSlot id (some ref)).get later = none := by
            intro later member
            have different : id ≠ later := by
              rintro rfl
              exact notAgain member
            rw [FlattenObjects.get_setSlot target inside, if_neg different]
            exact free later (List.mem_cons_of_mem _ member)
          have stillAlive :
              ∀ later other, source.get later = some other →
                0 < (world.retain ref).strong other := by
            intro later other isThere
            exact strong_retain_pos (alive later other isThere)
          obtain ⟨heldAfter, after, counts, tables, processes, stays, gets⟩ :=
            ih (balanced.retain (alive id ref found)) restDistinct stillFree stillAlive
          simp only [copySlots, found, added]
          refine ⟨heldAfter, after, ?_, tables, processes,
              (retain_staysDropped (alive id ref found)).trans stays, ?_⟩
          · intro asked
            have later := counts asked
            rw [List.count_cons, FlattenObjects.count_setSlot_of_free inside freeHere] at later
            simp only [beq_iff_eq] at later
            omega
          · intro asked
            rw [gets asked, FlattenObjects.get_setSlot target inside]
            by_cases isHere : asked = id
            · subst isHere
              simp [found, notAgain]
            · simp [isHere, Ne.symm isHere]

/-- `copy_inner` gives the same table again; the new slots' references are
still to be accounted for. -/
theorem copyInner_spec {world : FdWorld} {table : Nat} {held : List FileRef} {bare : List Nat}
    (balanced : world.Balanced held bare)
    (known : table < world.tables.length) :
    (world.copyInner table).2 = world.tableAt table ∧
      (world.copyInner table).1.tables = world.tables ∧
      (world.copyInner table).1.processes = world.processes ∧
      StaysDropped world.pipes world (world.copyInner table).1 ∧
      ∃ owed,
        (world.copyInner table).1.Balanced owed bare ∧
          ∀ ref, owed.count ref = held.count ref + (world.tableAt table).count ref := by
  obtain ⟨owed, after, counts, tables, processes, stays, gets⟩ :=
    @copySlots_spec (world.tableAt table) world.pipes (world.tableAt table).ids
      world .new held bare balanced (FlattenObjects.nodup_ids _) (by simp)
      (fun id ref found => balanced.strong_pos known found)
  have unfolded :
      copySlots (world.tableAt table) (world.tableAt table).ids (world, .new) =
        world.copyInner table := by
    rw [copyInner]
  rw [unfolded] at after counts tables processes stays gets
  have sameTable : (world.copyInner table).2 = world.tableAt table := by
    apply FlattenObjects.ext_get
    intro asked
    rw [gets asked]
    cases found : (world.tableAt table).get asked with
    | none => simp
    | some ref => simp [found]
  refine ⟨sameTable, tables, processes, stays, owed, after, ?_⟩
  intro ref
  have count := counts ref
  rw [sameTable, FlattenObjects.count_new] at count
  omega

end Copy

theorem Balanced.appendTable {world : FdWorld} {held owed : List FileRef} {bare : List Nat}
    (balanced : world.Balanced owed bare) {slots : FdSlots}
    (all : ∀ ref, owed.count ref = held.count ref + slots.count ref) :
    { world with tables := world.tables ++ [slots] }.Balanced held bare where
  counted ref := by
    have before := balanced.counted ref
    have here := all ref
    simp only [slotCount, List.map_append, List.sum_append, List.map_cons,
      List.map_nil, List.sum_cons, List.sum_nil] at before ⊢
    omega
  buffers := balanced.buffers
  freshPipe := balanced.freshPipe
  freshFile := balanced.freshFile

/-! ## Clearing a table -/

private theorem removeSlots_spec (ids : List Nat) {world : FdWorld} {table bound : Nat}
    {held : List FileRef} {bare : List Nat}
    (balanced : world.Balanced held bare)
    (known : table < world.tables.length) :
    Leaves table bound world (removeSlots table ids world) held bare ∧
      ∀ asked,
        ((removeSlots table ids world).tableAt table).get asked =
          if asked ∈ ids then none
          else (world.tableAt table).get asked := by
  induction ids generalizing world with
  | nil =>
      exact ⟨.refl balanced, fun _ => by
        simp [removeSlots]⟩
  | cons id rest ih =>
      cases found : (world.tableAt table).get id with
      | none =>
          obtain ⟨leaves, gets⟩ := ih balanced known
          simp only [removeSlots, found]
          refine ⟨leaves, ?_⟩
          intro asked
          rw [gets asked]
          by_cases isHere : asked = id
          · subst isHere
            simp [found]
          · simp [isHere]
      | some ref =>
          have inside : id < axFileLimit := FlattenObjects.lt_of_get_eq_some found
          have removed :
              Leaves table bound world ((world.setSlot table id none).release ref) held bare :=
            .clearSlot balanced known found
          obtain ⟨leaves, gets⟩ := ih removed.balanced (removed.known known)
          simp only [removeSlots, found]
          refine ⟨removed.trans leaves, ?_⟩
          intro asked
          rw [gets asked, tableAt_release, tableAt_setSlot_self known,
            FlattenObjects.get_setSlot _ inside]
          by_cases isHere : asked = id
          · subst isHere
            simp
          · simp [isHere, Ne.symm isHere]

theorem clear_spec {world : FdWorld} {table : Nat} {held : List FileRef} {bare : List Nat}
    (balanced : world.Balanced held bare)
    (known : table < world.tables.length) :
    Leaves table world.pipes world (world.clear table) held bare ∧
      (world.clear table).tableAt table = .new := by
  obtain ⟨leaves, gets⟩ := removeSlots_spec (world.tableAt table).ids balanced known
  refine ⟨leaves, ?_⟩
  apply FlattenObjects.ext_get
  intro asked
  rw [clear, gets asked, FlattenObjects.get_new]
  cases found : (world.tableAt table).get asked with
  | none => simp
  | some ref => simp [found]

end FdWorld

end Vegar.File

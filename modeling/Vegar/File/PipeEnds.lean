import Vegar.File.Dup

/-!
# The two ends of a pipe

`sys_pipe2` adds the read end and then the write end of a new pipe.  If the
second finds no free number it closes the first again.  While no other thread
takes the lock of the table in between, the call adds both ends or leaves the
table as it was.
-/

namespace Vegar.File

open FdWorld (fdIndex fdIndex_ofNat)

structure AddedSlot (before after : FdSlots) (fd : BitVec 32) (ref : FileRef) : Prop where
  free : before.get (fdIndex fd) = none
  holds :
    ∀ asked, after.get asked =
      if fdIndex fd = asked then some ref else before.get asked

def Pipe2AllOrNothing (pipe : Nat) (before : FdSlots) (outcome : FdOutcome)
    (after : FdSlots) : Prop :=
  (∃ readFd writeFd, outcome = .ok (.ends readFd writeFd) ∧ readFd ≠ writeFd ∧
    before.get (fdIndex readFd) = none ∧
    before.get (fdIndex writeFd) = none ∧
    after.get (fdIndex readFd) = some (.pipeEnd pipe true) ∧
    after.get (fdIndex writeFd) = some (.pipeEnd pipe false) ∧
    ∀ asked, asked ≠ fdIndex readFd → asked ≠ fdIndex writeFd →
      after.get asked = before.get asked) ∨
  ∃ error, outcome = .error (.err error) ∧ after = before

section Alone

variable {allocator : IdAllocator FileRef axFileLimit}

variable {before after : FdSlots} {fd : BitVec 32} {ref : FileRef}

theorem AddedSlot.get_self (added : AddedSlot before after fd ref) :
    after.get (fdIndex fd) = some ref := by
  rw [added.holds, if_pos rfl]

theorem AddedSlot.get_of_ne (added : AddedSlot before after fd ref) {asked : Nat}
    (different : asked ≠ fdIndex fd) :
    after.get asked = before.get asked := by
  rw [added.holds, if_neg different.symm]

theorem AddedSlot.undo (added : AddedSlot before after fd ref) :
    closeSlot after fd = (.ok (), before) := by
  have isClosed : (closeSlot after fd).1 = .ok () := by
    simp only [closeSlot, added.get_self]
  have isBefore : (closeSlot after fd).2 = before := by
    apply FlattenObjects.ext_get
    intro asked
    rw [get_closeSlot]
    by_cases here : fdIndex fd = asked
    · rw [if_pos here, ← here, added.free]
    · rw [if_neg here]
      exact added.get_of_ne fun same => here same.symm
  exact Prod.ext isClosed isBefore

theorem addedSlot_of_addSlot {slots added : FdSlots}
    (isAdded : addSlot allocator slots ref = (.ok fd, added)) :
    AddedSlot slots added fd ref := by
  unfold addSlot at isAdded
  split at isAdded
  · next id picked =>
      obtain ⟨isFd, isTable⟩ := Prod.mk.inj isAdded
      have ⟨inside, free⟩ := allocator.pickFree slots id picked
      have isIndex : fdIndex fd = id := by
        rw [← Except.ok.inj isFd, fdIndex_ofNat inside]
      refine ⟨?_, ?_⟩
      · rw [isIndex]
        exact free
      · intro asked
        rw [isIndex, ← isTable, FlattenObjects.get_setSlot _ inside]
  · cases (Prod.mk.inj isAdded).1

theorem AddedSlot.ends {pipe : Nat} {half : FdSlots} {readFd writeFd : BitVec 32}
    (readAdded : AddedSlot before half readFd (.pipeEnd pipe true))
    (writeAdded : AddedSlot half after writeFd (.pipeEnd pipe false)) :
    Pipe2AllOrNothing pipe before (.ok (.ends readFd writeFd)) after := by
  have differentIndex : fdIndex readFd ≠ fdIndex writeFd := by
    intro same
    have taken := readAdded.get_self
    rw [same, writeAdded.free] at taken
    cases taken
  have different : readFd ≠ writeFd := fun same => differentIndex (congrArg fdIndex same)
  have writeFree : before.get (fdIndex writeFd) = none := by
    rw [← readAdded.get_of_ne differentIndex.symm]
    exact writeAdded.free
  have readHolds : after.get (fdIndex readFd) = some (.pipeEnd pipe true) := by
    rw [writeAdded.get_of_ne differentIndex]
    exact readAdded.get_self
  refine Or.inl
      ⟨readFd, writeFd, rfl, different, readAdded.free, writeFree, readHolds,
        writeAdded.get_self, ?_⟩
  intro asked notRead notWrite
  rw [writeAdded.get_of_ne notWrite, readAdded.get_of_ne notRead]

/-- What a `sys_pipe2` that runs alone has made of the table it found. -/
def PipeMade (pipe : Nat) (before slots : FdSlots) : FdPhase → Prop
  | .entered => slots = before
  | .half readFd => AddedSlot before slots readFd (.pipeEnd pipe true)
  | .undoing readFd _ => AddedSlot before slots readFd (.pipeEnd pipe true)
  | .returned outcome => Pipe2AllOrNothing pipe before outcome slots
  | .holding _ => False

theorem PipeMade.step {pipe : Nat} {fds : LinuxResult Unit} {phase : FdPhase}
    {before slots : FdSlots} {moved : FdPhase × FdSlots}
    (made : PipeMade pipe before slots phase)
    (stepped : fdStep allocator pipe (.pipe2 fds) phase slots = some moved) :
    PipeMade pipe before moved.2 moved.1 := by
  cases phase with
  | entered =>
      have isBefore : slots = before := made
      obtain rfl := Option.some.inj stepped
      unfold pipeAddRead
      split
      · next error => exact Or.inr ⟨error, rfl, isBefore⟩
      · split
        · next added =>
            rw [← isBefore]
            exact addedSlot_of_addSlot added
        · next error same failed =>
            exact Or.inr ⟨error, rfl, (addSlot_eq_error failed).trans isBefore⟩
  | half readFd =>
      have readAdded : AddedSlot before slots readFd _ := made
      obtain rfl := Option.some.inj stepped
      unfold pipeAddWrite
      split
      · next added => exact readAdded.ends (addedSlot_of_addSlot added)
      · next failed =>
          rw [addSlot_eq_error failed]
          exact readAdded
  | undoing readFd error =>
      have readAdded : AddedSlot before slots readFd _ := made
      obtain rfl := Option.some.inj stepped
      simp only [pipeUndo, readAdded.undo]
      exact Or.inr ⟨error, rfl, rfl⟩
  | holding ref => cases stepped
  | returned outcome => cases stepped

theorem pipeMade_of_runs {firstPipe index : Nat} {fds : LinuxResult Unit} {phase : FdPhase}
    {slots : FdSlots}
    (runs : (fdProtocol allocator firstPipe).Runs index (.pipe2 fds) .entered before phase slots) :
    PipeMade (firstPipe + index) before slots phase := by
  induction runs with
  | refl => exact rfl
  | tail _ stepped ih =>
      exact ih.step stepped

end Alone

/-- `sys_pipe2` without interruption returns two new descriptors or leaves the
table exactly as it was, for every table and every choice of free numbers. -/
theorem sysPipe2_all_or_nothing (allocator : IdAllocator FileRef axFileLimit) (world : FdWorld)
    (table : Nat) (known : table < world.tables.length)
    (fds : LinuxResult Unit) :
    ∃ outcome : FdOutcome,
      (fdProtocol allocator world.pipes).Runs 0 (.pipe2 fds) .entered
        (world.tableAt table) (.returned outcome)
        ((world.sysPipe2 allocator table fds).2.tableAt table) ∧
      outcome.map (fun _ => 0) = (world.sysPipe2 allocator table fds).1 ∧
      Pipe2AllOrNothing world.pipes (world.tableAt table) outcome
        ((world.sysPipe2 allocator table fds).2.tableAt table) := by
  obtain ⟨outcome, runs, sameResult⟩ :=
    @sysPipe2_runs allocator world table known world.pipes 0 (Nat.add_zero world.pipes) fds
  have made := pipeMade_of_runs runs
  rw [Nat.add_zero] at made
  exact ⟨outcome, runs, sameResult, made⟩

/-- A pipe in a table with one descriptor. -/
theorem sysPipe2_all_or_nothing_oneDescriptor :
    0 < oneDescriptor.tables.length ∧
      ∃ outcome : FdOutcome,
        (fdProtocol (.smallest FileRef axFileLimit) 0).Runs 0
          (.pipe2 (.ok ())) .entered (oneDescriptor.tableAt 0)
          (.returned outcome)
          ((oneDescriptor.sysPipe2 (.smallest _ _) 0 (.ok ())).2.tableAt 0) ∧
        outcome.map (fun _ => 0) = (oneDescriptor.sysPipe2 (.smallest _ _) 0 (.ok ())).1 ∧
        Pipe2AllOrNothing 0 (oneDescriptor.tableAt 0) outcome
          ((oneDescriptor.sysPipe2 (.smallest _ _) 0 (.ok ())).2.tableAt 0) := by
  have known : 0 < oneDescriptor.tables.length := by decide
  exact ⟨known, sysPipe2_all_or_nothing _ oneDescriptor 0 known (.ok ())⟩

end Vegar.File

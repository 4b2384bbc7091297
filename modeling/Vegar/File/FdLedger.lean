import Vegar.File.FdTable
import Mathlib.Algebra.BigOperators.Group.List.Basic
import Mathlib.Algebra.GroupWithZero.Nat

/-!
# The ledger of references

Every clone, drop and move of a reference keeps the counters equal to what
the slots and the variables of the running call hold.  The calls are composed
of these steps, so each of them starts and ends with nothing held.
-/

namespace Vegar.File

namespace FdWorld

/-! ## Slots of one table -/

def slotCount (world : FdWorld) (ref : FileRef) : Nat :=
  (world.tables.map fun slots => slots.count ref).sum

variable {world : FdWorld} {table : Nat}

theorem tableAt_eq {slots : FdSlots} (found : world.tables[table]? = some slots) :
    world.tableAt table = slots := by
  rw [tableAt, found, Option.getD_some]

theorem exists_table (known : table < world.tables.length) :
    ∃ slots, world.tables[table]? = some slots :=
  ⟨_, List.getElem?_eq_getElem known⟩

@[simp]
theorem tables_length_setSlot (world : FdWorld) (table id : Nat) (content : Option FileRef) :
    (world.setSlot table id content).tables.length =
      world.tables.length := by
  simp [setSlot]

theorem tableAt_setSlot_self {world : FdWorld} {table : Nat} (known : table < world.tables.length)
    (id : Nat) (content : Option FileRef) :
    (world.setSlot table id content).tableAt table = (world.tableAt table).setSlot id content := by
  obtain ⟨slots, found⟩ := exists_table known
  rw [tableAt_eq found]
  simp [tableAt, setSlot, found]

private theorem sum_modify_add {α : Type} (weigh : α → Nat) (change : α → α) (items : List α)
    {index : Nat} {item : α} (found : items[index]? = some item) :
    ((items.modify index change).map weigh).sum + weigh item =
      (items.map weigh).sum + weigh (change item) := by
  induction items generalizing index with
  | nil =>
      simp at found
  | cons first rest ih =>
      cases index with
      | zero =>
          simp only [List.getElem?_cons_zero, Option.some.injEq] at found
          subst found
          simp only [List.modify_zero_cons, List.map_cons, List.sum_cons]
          omega
      | succ index =>
          simp only [List.getElem?_cons_succ] at found
          have step := ih found
          simp only [List.modify_succ_cons, List.map_cons, List.sum_cons]
          omega

variable {id : Nat}

theorem slotCount_setSlot (known : table < world.tables.length) (inside : id < axFileLimit)
    (content : Option FileRef) (ref : FileRef) :
    (world.setSlot table id content).slotCount ref +
        (if (world.tableAt table).get id = some ref then 1 else 0) =
      world.slotCount ref + if content = some ref then 1 else 0 := by
  obtain ⟨slots, found⟩ := exists_table known
  have overTables := sum_modify_add (fun slots => slots.count ref)
      (fun slots => slots.setSlot id content) world.tables found
  have inTable := slots.count_setSlot inside content ref
  rw [tableAt_eq found]
  simp only [slotCount, setSlot]
  omega

variable {ref : FileRef}

theorem slotCount_pos_iff :
    0 < world.slotCount ref ↔
      ∃ table id, table < world.tables.length ∧ (world.tableAt table).get id = some ref := by
  have positive : 0 < world.slotCount ref ↔ ∃ slots ∈ world.tables, 0 < slots.count ref := by
    rw [slotCount, List.sum_pos_iff_exists_pos_nat]
    simp
  rw [positive]
  constructor
  · rintro ⟨slots, member, held⟩
    obtain ⟨table, found⟩ := List.mem_iff_getElem?.mp member
    obtain ⟨id, content⟩ := FlattenObjects.count_pos_iff.mp held
    have known := (List.getElem?_eq_some_iff.mp found).1
    exact ⟨table, id, known, by rw [tableAt_eq found, content]⟩
  · rintro ⟨table, id, known, content⟩
    obtain ⟨slots, found⟩ := exists_table known
    rw [tableAt_eq found] at content
    exact ⟨slots, List.mem_of_getElem? found, FlattenObjects.count_pos_iff.mpr ⟨id, content⟩⟩

/-! ## The ledger -/

/-- One if an end of a pipe is behind an `Arc` that exists. -/
def liveEnd (world : FdWorld) (pipe : Nat) (readable : Bool) : Nat :=
  if 0 < world.strong (.pipeEnd pipe readable) then 1 else 0

def Known (world : FdWorld) : FileRef → Prop
  | .other number => number < world.files
  | .pipeEnd pipe _ => pipe < world.pipes

/-- `liveEnd` once a counter has another value. -/
def liveEndWith (world : FdWorld) (ref : FileRef) (value pipe : Nat) (readable : Bool) :
    Nat :=
  if FileRef.pipeEnd pipe readable = ref then
    if 0 < value then 1 else 0
  else world.liveEnd pipe readable

variable {value pipe : Nat}

theorem liveEnd_of_update {target : FdWorld}
    (strongSet : target.strong = Function.update world.strong ref value)
    {readable : Bool} :
    target.liveEnd pipe readable =
      world.liveEndWith ref value pipe readable := by
  rw [liveEnd, strongSet, liveEndWith]
  by_cases same : FileRef.pipeEnd pipe readable = ref
  · subst same
    rw [Function.update_self, if_pos rfl]
  · rw [Function.update_of_ne same, if_neg same, liveEnd]

theorem liveEndWith_of_pos (before : 0 < world.strong ref) (after : 0 < value)
    (pipe : Nat) (readable : Bool) :
    world.liveEndWith ref value pipe readable =
      world.liveEnd pipe readable := by
  rw [liveEndWith]
  by_cases same : FileRef.pipeEnd pipe readable = ref
  · rw [if_pos same, if_pos after, liveEnd, same, if_pos before]
  · rw [if_neg same]

@[simp]
theorem liveEndWith_other (world : FdWorld) (number value pipe : Nat) (readable : Bool) :
    world.liveEndWith (.other number) value pipe readable =
      world.liveEnd pipe readable := by
  simp [liveEndWith]

theorem liveEndWith_other_pipe {asked : Nat} (different : asked ≠ pipe)
    (readable direction : Bool) :
    world.liveEndWith (.pipeEnd pipe readable) value asked direction =
      world.liveEnd asked direction := by
  simp [liveEndWith, different]

/-- The counters agree with the slots, with the references `held` in
variables of the running call, and with the ends of the pipes `bare` that are
not behind an `Arc` yet. -/
structure Balanced (world : FdWorld) (held : List FileRef) (bare : List Nat) : Prop where
  counted : ∀ ref, world.strong ref = world.slotCount ref + held.count ref
  buffers :
    ∀ pipe,
      world.bufferStrong pipe = world.liveEnd pipe true + world.liveEnd pipe false + bare.count pipe
  freshPipe : ∀ pipe readable, world.pipes ≤ pipe → world.strong (.pipeEnd pipe readable) = 0
  freshFile : ∀ number, world.files ≤ number → world.strong (.other number) = 0

namespace Balanced

variable {world : FdWorld} {held : List FileRef} {bare : List Nat}

theorem strong_pos (balanced : world.Balanced held bare) (known : table < world.tables.length)
    (found : (world.tableAt table).get id = some ref) :
    0 < world.strong ref := by
  have inSlots : 0 < world.slotCount ref := slotCount_pos_iff.mpr ⟨table, id, known, found⟩
  have := balanced.counted ref
  omega

theorem known_of_strong_pos (balanced : world.Balanced held bare) (alive : 0 < world.strong ref) :
    world.Known ref := by
  cases ref with
  | other number =>
      by_contra unused
      have := balanced.freshFile number (Nat.le_of_not_lt unused)
      omega
  | pipeEnd pipe readable =>
      by_contra unused
      have := balanced.freshPipe pipe readable (Nat.le_of_not_lt unused)
      omega

private theorem strongChanged (balanced : world.Balanced held bare) {target : FdWorld}
    {heldAfter : List FileRef} {bareAfter : List Nat}
    (strongSet : target.strong = Function.update world.strong ref value)
    (sameTables : target.tables = world.tables)
    (samePipes : target.pipes = world.pipes)
    (sameFiles : target.files = world.files)
    (known : world.Known ref)
    (here : value = world.slotCount ref + heldAfter.count ref)
    (elsewhere : ∀ asked, asked ≠ ref → heldAfter.count asked = held.count asked)
    (buffers :
      ∀ pipe,
        target.bufferStrong pipe =
          world.liveEndWith ref value pipe true + world.liveEndWith ref value pipe false +
            bareAfter.count pipe) :
    target.Balanced heldAfter bareAfter where
  counted asked := by
    have sameSlots : target.slotCount asked = world.slotCount asked := by
      rw [slotCount, slotCount, sameTables]
    rw [strongSet, sameSlots]
    by_cases same : asked = ref
    · subst same
      rw [Function.update_self]
      exact here
    · rw [Function.update_of_ne same, elsewhere asked same]
      exact balanced.counted asked
  buffers pipe := by
    rw [liveEnd_of_update strongSet, liveEnd_of_update strongSet]
    exact buffers pipe
  freshPipe pipe readable fresh := by
    rw [samePipes] at fresh
    have different : FileRef.pipeEnd pipe readable ≠ ref := by
      rintro rfl
      exact absurd known (Nat.not_lt.mpr fresh)
    rw [strongSet, Function.update_of_ne different]
    exact balanced.freshPipe pipe readable fresh
  freshFile number fresh := by
    rw [sameFiles] at fresh
    have different : FileRef.other number ≠ ref := by
      rintro rfl
      exact absurd known (Nat.not_lt.mpr fresh)
    rw [strongSet, Function.update_of_ne different]
    exact balanced.freshFile number fresh

theorem retain (balanced : world.Balanced held bare) (alive : 0 < world.strong ref) :
    (world.retain ref).Balanced (ref :: held) bare := by
  refine balanced.strongChanged rfl rfl rfl rfl (balanced.known_of_strong_pos alive) ?_ ?_ ?_
  · have before := balanced.counted ref
    rw [List.count_cons_self]
    omega
  · intro asked different
    rw [List.count_cons_of_ne (Ne.symm different)]
  · intro pipe
    have raised : 0 < world.strong ref + 1 := Nat.succ_pos _
    rw [liveEndWith_of_pos alive raised, liveEndWith_of_pos alive raised]
    exact balanced.buffers pipe

theorem release (balanced : world.Balanced (ref :: held) bare) :
    (world.release ref).Balanced held bare := by
  have counted := balanced.counted ref
  rw [List.count_cons_self] at counted
  have alive : 0 < world.strong ref := by omega
  have known := balanced.known_of_strong_pos alive
  have elsewhere : ∀ asked, asked ≠ ref → held.count asked = (ref :: held).count asked := by
    intro asked different
    rw [List.count_cons_of_ne (Ne.symm different)]
  by_cases last : world.strong ref = 1
  · cases ref with
    | other number =>
        simp only [FdWorld.release, if_pos last]
        refine balanced.strongChanged rfl rfl rfl rfl known (by omega) elsewhere ?_
        intro pipe
        rw [liveEndWith_other, liveEndWith_other]
        exact balanced.buffers pipe
    | pipeEnd ended readable =>
        simp only [FdWorld.release, if_pos last]
        refine balanced.strongChanged rfl rfl rfl rfl known (by omega) elsewhere ?_
        intro pipe
        have before := balanced.buffers pipe
        have wasLive : world.liveEnd ended readable = 1 := by
          rw [liveEnd, if_pos alive]
        change Function.update world.bufferStrong ended _ pipe = _
        by_cases same : pipe = ended
        · subst same
          rw [Function.update_self]
          cases readable <;> simp [liveEndWith, last] <;> omega
        · rw [Function.update_of_ne same, liveEndWith_other_pipe same, liveEndWith_other_pipe same]
          exact before
  · have more : 0 < world.strong ref - 1 := by omega
    have unfolded :
        world.release ref =
          { world with
            strong := Function.update world.strong ref (world.strong ref - 1) } := by
      unfold FdWorld.release
      rw [if_neg last]
    rw [unfolded]
    refine balanced.strongChanged rfl rfl rfl rfl known (by omega) elsewhere ?_
    intro pipe
    rw [liveEndWith_of_pos alive more, liveEndWith_of_pos alive more]
    exact balanced.buffers pipe

theorem newArc {readable : Bool} (balanced : world.Balanced held (pipe :: bare))
    (made : pipe < world.pipes)
    (unused : world.strong (.pipeEnd pipe readable) = 0) :
    (world.newArc (.pipeEnd pipe readable)).Balanced (.pipeEnd pipe readable :: held) bare := by
  have counted := balanced.counted (.pipeEnd pipe readable)
  refine balanced.strongChanged rfl rfl rfl rfl made ?_ ?_ ?_
  · rw [List.count_cons_self]
    omega
  · intro asked different
    rw [List.count_cons_of_ne (Ne.symm different)]
  · intro asked
    have before := balanced.buffers asked
    have notLive : world.liveEnd pipe readable = 0 := by
      rw [liveEnd, unused, if_neg (Nat.lt_irrefl 0)]
    change world.bufferStrong asked = _
    by_cases same : asked = pipe
    · subst same
      rw [List.count_cons_self] at before
      cases readable <;> simp [liveEndWith] <;> omega
    · rw [List.count_cons_of_ne (Ne.symm same)] at before
      rw [liveEndWith_other_pipe same, liveEndWith_other_pipe same]
      exact before

theorem newFile (balanced : world.Balanced held bare) :
    world.newFile.Balanced (.other world.files :: held) bare where
  counted asked := by
    have before := balanced.counted asked
    change Function.update world.strong (.other world.files) 1 asked = world.slotCount asked + _
    by_cases same : asked = .other world.files
    · subst same
      have unused := balanced.freshFile world.files (Nat.le_refl _)
      rw [Function.update_self, List.count_cons_self]
      omega
    · rw [Function.update_of_ne same, List.count_cons_of_ne (Ne.symm same)]
      exact before
  buffers pipe := by
    have live :
        ∀ readable,
          world.newFile.liveEnd pipe readable =
            world.liveEnd pipe readable := by
      intro readable
      rw [liveEnd_of_update rfl, liveEndWith_other]
    rw [live, live]
    exact balanced.buffers pipe
  freshPipe pipe readable fresh := by
    have different : FileRef.pipeEnd pipe readable ≠ .other world.files := by
      simp
    change Function.update world.strong (.other world.files) 1 (.pipeEnd pipe readable) = 0
    rw [Function.update_of_ne different]
    exact balanced.freshPipe pipe readable fresh
  freshFile number fresh := by
    change world.files + 1 ≤ number at fresh
    have different : FileRef.other number ≠ .other world.files := by
      intro equal
      cases equal
      omega
    change Function.update world.strong (.other world.files) 1 (.other number) = 0
    rw [Function.update_of_ne different]
    exact balanced.freshFile number (by omega)

theorem newPipe (balanced : world.Balanced held []) :
    world.newPipe.Balanced held [world.pipes, world.pipes] where
  counted := balanced.counted
  buffers pipe := by
    have before := balanced.buffers pipe
    have same :
        ∀ readable,
          world.newPipe.liveEnd pipe readable =
            world.liveEnd pipe readable :=
      fun _ => rfl
    rw [same, same]
    change Function.update world.bufferStrong world.pipes 2 pipe = _
    by_cases isNew : pipe = world.pipes
    · subst isNew
      have unused : ∀ readable, world.liveEnd world.pipes readable = 0 := by
        intro readable
        rw [liveEnd, balanced.freshPipe _ readable (Nat.le_refl _), if_neg (Nat.lt_irrefl 0)]
      rw [Function.update_self, unused, unused]
      simp
    · rw [Function.update_of_ne isNew]
      simpa [Ne.symm isNew] using before
  freshPipe pipe readable fresh := balanced.freshPipe pipe readable (Nat.le_of_succ_le fresh)
  freshFile := balanced.freshFile

theorem dropEnd (balanced : world.Balanced held (pipe :: bare)) :
    (world.dropEnd pipe).Balanced held bare where
  counted := balanced.counted
  buffers asked := by
    have before := balanced.buffers asked
    have same :
        ∀ readable,
          (world.dropEnd pipe).liveEnd asked readable =
            world.liveEnd asked readable :=
      fun _ => rfl
    rw [same, same]
    change Function.update world.bufferStrong pipe _ asked = _
    by_cases isDropped : asked = pipe
    · subst isDropped
      rw [List.count_cons_self] at before
      rw [Function.update_self]
      omega
    · rw [List.count_cons_of_ne (Ne.symm isDropped)] at before
      rw [Function.update_of_ne isDropped]
      exact before
  freshPipe := balanced.freshPipe
  freshFile := balanced.freshFile

theorem setSlot (balanced : world.Balanced held bare)
    {content : Option FileRef} {heldAfter : List FileRef}
    (known : table < world.tables.length) (inside : id < axFileLimit)
    (moved :
      ∀ ref,
        heldAfter.count ref + (if content = some ref then 1 else 0) =
          held.count ref +
            if (world.tableAt table).get id = some ref then 1 else 0) :
    (world.setSlot table id content).Balanced heldAfter bare where
  counted ref := by
    have before := balanced.counted ref
    have slots := slotCount_setSlot known inside content ref
    have balance := moved ref
    change world.strong ref = _
    omega
  buffers := balanced.buffers
  freshPipe := balanced.freshPipe
  freshFile := balanced.freshFile

theorem withProcesses (balanced : world.Balanced held bare) (processes : List FdProcess) :
    { world with processes := processes }.Balanced held bare :=
  ⟨balanced.counted, balanced.buffers, balanced.freshPipe, balanced.freshFile⟩

theorem perm (balanced : world.Balanced held bare) {heldAfter : List FileRef}
    (reordered : held.Perm heldAfter) :
    world.Balanced heldAfter bare where
  counted ref := by
    rw [← reordered.count_eq ref]
    exact balanced.counted ref
  buffers := balanced.buffers
  freshPipe := balanced.freshPipe
  freshFile := balanced.freshFile

theorem takeSlot (balanced : world.Balanced held bare) (known : table < world.tables.length)
    (found : (world.tableAt table).get id = some ref) :
    (world.setSlot table id none).Balanced (ref :: held) bare := by
  refine balanced.setSlot known (FlattenObjects.lt_of_get_eq_some found) ?_
  intro asked
  rw [found, List.count_cons]
  simp

theorem putSlot (balanced : world.Balanced (ref :: held) bare)
    (known : table < world.tables.length) (inside : id < axFileLimit)
    (free : (world.tableAt table).get id = none) :
    (world.setSlot table id (some ref)).Balanced held bare := by
  refine balanced.setSlot known inside ?_
  intro asked
  rw [free, List.count_cons]
  simp

end Balanced

end FdWorld

end Vegar.File

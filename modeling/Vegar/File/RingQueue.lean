import Vegar.File.Pipe
import Vegar.Lib.BoundedQueue
import Vegar.Lib.Usize

/-!
# The ring buffer as a bounded queue

`PipeRingBuffer` of `api/src/file/pipe.rs` without any knowledge of its
fields: an index outside the array and a subtraction below zero are panics.
Where `write_byte` is called with room and `read_byte` with data only, as in
the loops of `Pipe`, it is a queue of at most 256 bytes.
-/

namespace Vegar.File

open Vegar.Lib

/-- The fields of `PipeRingBuffer`. -/
structure RingFields where
  arr : Vector UInt8 ringBufferSize
  head : Nat
  tail : Nat
  status : RingBufferStatus

namespace RingFields

/-- `PipeRingBuffer::new`. -/
def new : RingFields where
  arr := Vector.replicate ringBufferSize 0
  head := 0
  tail := 0
  status := .empty

variable (fields : RingFields)

/-- `write_byte`; `none` is a panic, here and below. -/
def writeByte (byte : UInt8) : Option RingFields :=
  if inside : fields.tail < ringBufferSize then
    let tail := (fields.tail + 1) % ringBufferSize
    some
      { arr := fields.arr.set fields.tail byte inside
        head := fields.head
        tail := tail
        status := if tail = fields.head then .full else .normal }
  else none

/-- `read_byte`. -/
def readByte : Option (UInt8 × RingFields) :=
  if inside : fields.head < ringBufferSize then
    let head := (fields.head + 1) % ringBufferSize
    some
      (fields.arr.get ⟨fields.head, inside⟩,
        { arr := fields.arr
          head := head
          tail := fields.tail
          status := if head = fields.tail then .empty else .normal })
  else none

/-- `available_read`. -/
def availableRead : Option Nat :=
  if fields.status = .empty then some 0
  else if fields.tail > fields.head then
    usizeSub fields.tail fields.head
  else
    (usizeAdd fields.tail ringBufferSize).bind fun sum =>
      usizeSub sum fields.head

/-- `available_write`. -/
def availableWrite : Option Nat :=
  if fields.status = .full then some 0
  else fields.availableRead.bind fun read => usizeSub ringBufferSize read

/-- The `available_read` bytes from `head` on, modulo 256. -/
def contents : List UInt8 := Circular.window fields.arr fields.head (fields.availableRead.getD 0)

/-- `available_read() > 0`. -/
def hasData : Bool := fields.availableRead.any (0 < ·)

/-- `available_write() > 0`. -/
def hasRoom : Bool := fields.availableWrite.any (0 < ·)

/-- `read_byte` with a check that the buffer is not empty. -/
def readChecked : Option (UInt8 × RingFields) :=
  if fields.hasData then fields.readByte else none

/-- `write_byte` with a check that the buffer is not full. -/
def writeChecked (byte : UInt8) : Option RingFields :=
  if fields.hasRoom then fields.writeByte byte else none

end RingFields

/-- The states that checked calls reach from `new`. -/
def ringMachine : Machine RingFields (QueueAction UInt8) where
  start fields := fields = .new
  next fields
    | .push byte => fields.writeChecked byte
    | .pop byte =>
        fields.readChecked.bind fun (first, after) =>
          if first = byte then some after else none

/-! ## The loops with checks -/

/-- `for c in buf.iter_mut().take(read_size)`. -/
def readBytesChecked : Nat → RingFields → Option (List UInt8 × RingFields)
  | 0, fields => some ([], fields)
  | count + 1, fields =>
      fields.readChecked.bind fun (byte, after) =>
        (readBytesChecked count after).map fun (rest, last) =>
          (byte :: rest, last)

/-- One pass of the loop of `Pipe::read`. -/
def readSectionChecked (fields : RingFields) (closed : Bool) (len : Nat) :
    Option (Option (List UInt8) × RingFields) :=
  fields.availableRead.bind fun available =>
    let readSize := min available len
    if readSize = 0 then
      if closed then some (some [], fields) else some (none, fields)
    else
      (readBytesChecked readSize fields).map fun (bytes, after) =>
        (some bytes, after)

theorem WriteProgress.more {progress : WriteProgress}
    (notAtEnd : progress.writeSize ≠ progress.buf.length) :
    progress.writeSize < progress.buf.length :=
  Nat.lt_of_le_of_ne progress.inside notAtEnd

/-- `for _ in 0..loop_write`: the buffer, the progress of the call, and
whether the loop ran into `write_size == total_len`. -/
def writeBytesChecked :
    Nat → RingFields → WriteProgress → Option (RingFields × WriteProgress × Bool)
  | 0, fields, progress => some (fields, progress, false)
  | count + 1, fields, progress =>
      if atEnd : progress.writeSize = progress.buf.length then
        some (fields, progress, true)
      else
        have more := WriteProgress.more atEnd
        (fields.writeChecked progress.buf[progress.writeSize]).bind fun after =>
            writeBytesChecked count after ⟨progress.buf, progress.writeSize + 1, more⟩

/-- One pass of the loop of `Pipe::write`. -/
def writeSectionChecked (fields : RingFields) (closed : Bool) (progress : WriteProgress) :
    Option (Option Nat × RingFields × WriteProgress) :=
  fields.availableWrite.bind fun loopWrite =>
    if loopWrite = 0 then
      some (if closed then some progress.writeSize else none, fields, progress)
    else
      (writeBytesChecked loopWrite fields progress).map fun (after, moved, finished) =>
          (if finished then some moved.writeSize else none, after, moved)

/-! ## The fields of a buffer that carries its invariant -/

namespace PipeRingBuffer

variable (ring : PipeRingBuffer)

def fields : RingFields where
  arr := ring.arr
  head := ring.head
  tail := ring.tail
  status := ring.status

@[simp]
theorem fields_writeByte (byte : UInt8) :
    ring.fields.writeByte byte = some (ring.writeByte byte).fields :=
  dif_pos ring.tailInside

@[simp]
theorem fields_readByte : ring.fields.readByte = some (ring.readByte.1, ring.readByte.2.fields) :=
  dif_pos ring.headInside

@[simp]
theorem fields_availableRead : ring.fields.availableRead = some ring.availableRead := by
  have headInside := ring.headInside
  have tailInside := ring.tailInside
  unfold RingFields.availableRead availableRead
  change (if ring.status = .empty then _ else _) = _
  by_cases isEmpty : ring.status = .empty
  · rw [if_pos isEmpty, if_pos isEmpty]
  · rw [if_neg isEmpty, if_neg isEmpty]
    change (if ring.tail > ring.head then _ else _) = _
    by_cases ahead : ring.tail > ring.head
    · rw [if_pos ahead, if_pos ahead]
      exact usizeSub_of_le (Nat.le_of_lt ahead)
    · have noOverflow : ring.tail + ringBufferSize ≤ usizeMax := by
        simp only [ringBufferSize, usizeMax] at tailInside ⊢
        omega
      rw [if_neg ahead, if_neg ahead]
      change (usizeAdd ring.tail ringBufferSize).bind _ = _
      rw [usizeAdd_of_le noOverflow]
      apply usizeSub_of_le
      change ring.head ≤ _
      omega

@[simp]
theorem fields_availableWrite : ring.fields.availableWrite = some ring.availableWrite := by
  unfold RingFields.availableWrite availableWrite
  change (if ring.status = .full then _ else _) = _
  by_cases isFull : ring.status = .full
  · rw [if_pos isFull, if_pos isFull]
  · rw [if_neg isFull, if_neg isFull, fields_availableRead]
    exact usizeSub_of_le ring.availableRead_le_size

@[simp]
theorem fields_contents : ring.fields.contents = ring.contents := by
  rw [RingFields.contents, fields_availableRead]
  rfl

theorem hasData_fields : ring.fields.hasData = true ↔ 0 < ring.availableRead := by
  rw [RingFields.hasData, fields_availableRead]
  exact decide_eq_true_iff

theorem hasRoom_fields : ring.fields.hasRoom = true ↔ 0 < ring.availableWrite := by
  rw [RingFields.hasRoom, fields_availableWrite]
  exact decide_eq_true_iff

theorem readChecked_fields (data : 0 < ring.availableRead) :
    ring.fields.readChecked = some (ring.readByte.1, ring.readByte.2.fields) := by
  rw [RingFields.readChecked, if_pos (ring.hasData_fields.mpr data), fields_readByte]

theorem writeChecked_fields (byte : UInt8) (room : 0 < ring.availableWrite) :
    ring.fields.writeChecked byte = some (ring.writeByte byte).fields := by
  rw [RingFields.writeChecked, if_pos (ring.hasRoom_fields.mpr room), fields_writeByte]

theorem ringMachine_next_cases {action : QueueAction UInt8} {target : RingFields}
    (stepped : ringMachine.next ring.fields action = some target) :
    (∃ byte, action = .push byte ∧ 0 < ring.availableWrite ∧
      target = (ring.writeByte byte).fields) ∨
    (action = .pop ring.readByte.1 ∧ 0 < ring.availableRead ∧ target = ring.readByte.2.fields) := by
  cases action with
  | push byte =>
      obtain ⟨hasRoom, isTarget⟩ := Option.ite_none_right_eq_some.mp stepped
      have room := ring.hasRoom_fields.mp hasRoom
      rw [fields_writeByte] at isTarget
      exact .inl ⟨byte, rfl, room, (Option.some.inj isTarget).symm⟩
  | pop byte =>
      obtain ⟨⟨first, after⟩, taken, isTarget⟩ := Option.bind_eq_some_iff.mp stepped
      obtain ⟨hasData, isRead⟩ := Option.ite_none_right_eq_some.mp taken
      have data := ring.hasData_fields.mp hasData
      rw [fields_readByte] at isRead
      obtain ⟨isFirst, isAfter⟩ := Prod.mk.inj (Option.some.inj isRead)
      obtain ⟨isByte, isLast⟩ := Option.ite_none_right_eq_some.mp isTarget
      rw [isFirst, ← isByte, isAfter]
      exact .inr ⟨rfl, data, (Option.some.inj isLast).symm⟩

end PipeRingBuffer

/-! ## Reachable fields -/

theorem exists_ring_of_reachable {fields : RingFields} (reached : ringMachine.Reachable fields) :
    ∃ ring : PipeRingBuffer, ring.fields = fields := by
  apply Machine.Reachable.invariant _ _ reached
  · intro start isNew
    exact ⟨.new, isNew.symm⟩
  · intro source action target _ isRing stepped
    obtain ⟨ring, rfl⟩ := isRing
    rcases ring.ringMachine_next_cases stepped with ⟨byte, -, -, isTarget⟩ | ⟨-, -, isTarget⟩
    · exact ⟨ring.writeByte byte, isTarget.symm⟩
    · exact ⟨ring.readByte.2, isTarget.symm⟩

structure RingFields.IsQueue (fields : RingFields) : Prop where
  headInside : fields.head < 256
  tailInside : fields.tail < 256
  extreme : fields.status = .empty ∨ fields.status = .full → fields.head = fields.tail
  normal : fields.status = .normal → fields.head ≠ fields.tail
  total :
    ∃ read write, fields.availableRead = some read ∧
      fields.availableWrite = some write ∧ read + write = 256
  appends :
    ∀ byte, fields.hasRoom = true →
      ∃ after, fields.writeByte byte = some after ∧ after.contents = fields.contents ++ [byte]
  removes :
    fields.hasData = true →
      ∃ first after, fields.readByte = some (first, after) ∧
        fields.contents = first :: after.contents

theorem PipeRingBuffer.isQueue_fields (ring : PipeRingBuffer) : ring.fields.IsQueue where
  headInside := ring.headInside
  tailInside := ring.tailInside
  extreme := by
    intro extreme
    apply ring.head_eq_tail_of_status_ne_normal
    rintro isNormal
    change ring.status = .empty ∨ ring.status = .full at extreme
    rw [isNormal] at extreme
    rcases extreme with impossible | impossible <;> cases impossible
  normal := ring.normalIff.mp
  total := ⟨_, _, ring.fields_availableRead, ring.fields_availableWrite,
      ring.availableRead_add_availableWrite⟩
  appends := by
    intro byte hasRoom
    refine ⟨_, ring.fields_writeByte byte, ?_⟩
    rw [fields_contents, fields_contents]
    exact ring.contents_writeByte byte (ring.hasRoom_fields.mp hasRoom)
  removes := by
    intro hasData
    refine ⟨_, _, ring.fields_readByte, ?_⟩
    rw [fields_contents, fields_contents]
    exact ring.contents_readByte (ring.hasData_fields.mp hasData)

/-! ## The queue -/

theorem PipeRingBuffer.contents_next (ring : PipeRingBuffer) (action : QueueAction UInt8) :
    (ringMachine.next ring.fields action).map RingFields.contents =
      (boundedQueue ringBufferSize).next ring.contents action := by
  have total := ring.availableRead_add_availableWrite
  have length := ring.length_contents
  cases action with
  | push byte =>
      change (ring.fields.writeChecked byte).map _ =
        if ring.contents.length < ringBufferSize then _ else _
      by_cases room : 0 < ring.availableWrite
      · rw [ring.writeChecked_fields byte room, if_pos (by omega),
          Option.map_some, fields_contents, ring.contents_writeByte byte room]
      · have noRoom : ¬ ring.fields.hasRoom = true :=
          fun hasRoom => room (ring.hasRoom_fields.mp hasRoom)
        rw [RingFields.writeChecked, if_neg noRoom, if_neg (by omega)]
        rfl
  | pop byte =>
      change (ring.fields.readChecked.bind _).map _ =
        queueNext ringBufferSize ring.contents (.pop byte)
      by_cases data : 0 < ring.availableRead
      · rw [ring.readChecked_fields data, ring.contents_readByte data]
        simp only [Option.bind_some, queueNext]
        split
        · rw [Option.map_some, fields_contents]
        · rfl
      · have noData : ¬ ring.fields.hasData = true :=
          fun hasData => data (ring.hasData_fields.mp hasData)
        have isEmpty : ring.contents = [] := List.eq_nil_of_length_eq_zero (by omega)
        rw [RingFields.readChecked, if_neg noData, isEmpty]
        rfl

theorem ringMachine_refines :
    ringMachine.Refines (boundedQueue ringBufferSize) RingFields.contents where
  start := by
    intro fields isNew
    rw [isNew]
    rfl
  next := by
    intro fields action reached
    obtain ⟨ring, rfl⟩ := exists_ring_of_reachable reached
    rw [ring.contents_next, ring.fields_contents]

/-! ## The loops of a pipe -/

section Loops

variable {ring : PipeRingBuffer}

theorem readBytesChecked_fields {count : Nat} (enough : count ≤ ring.availableRead) :
    readBytesChecked count ring.fields =
      some ((readBytes count ring).1, (readBytes count ring).2.fields) := by
  induction count generalizing ring with
  | zero => rfl
  | succ count ih =>
      have data : 0 < ring.availableRead := by omega
      have remaining := ring.availableRead_readByte data
      have later := @ih ring.readByte.2 (by omega)
      rw [readBytesChecked, ring.readChecked_fields data]
      change (readBytesChecked count ring.readByte.2.fields).map _ = _
      rw [later]
      rfl

theorem readSectionChecked_fields (closed : Bool) (len : Nat) :
    readSectionChecked ring.fields closed len =
      some ((readSection ring closed len).1, (readSection ring closed len).2.fields) := by
  rw [readSectionChecked, ring.fields_availableRead, Option.bind_some]
  unfold readSection
  by_cases nothing : min ring.availableRead len = 0
  · simp only [if_pos nothing]
    cases closed <;> rfl
  · simp only [if_neg nothing]
    rw [readBytesChecked_fields (Nat.min_le_left _ _)]
    rfl

theorem writeBytesChecked_fields {count : Nat} {progress : WriteProgress}
    (enough : count ≤ ring.availableWrite) :
    writeBytesChecked count ring.fields progress =
      some
        ((writeBytes count ring progress).ring.fields, (writeBytes count ring progress).progress,
          (writeBytes count ring progress).finished) := by
  induction count generalizing ring progress with
  | zero => rfl
  | succ count ih =>
      rw [writeBytesChecked, writeBytes]
      by_cases atEnd : progress.writeSize = progress.buf.length
      · rw [dif_pos atEnd, dif_pos atEnd]
      · have more := WriteProgress.more atEnd
        have room : 0 < ring.availableWrite := by omega
        let byte := progress.buf[progress.writeSize]
        have remaining := ring.availableWrite_writeByte byte room
        have later :=
          @ih (ring.writeByte byte) ⟨progress.buf, progress.writeSize + 1, more⟩ (by omega)
        rw [dif_neg atEnd, dif_neg atEnd]
        change (ring.fields.writeChecked byte).bind _ = _
        rw [ring.writeChecked_fields byte room]
        exact later

theorem writeSectionChecked_fields (closed : Bool) (progress : WriteProgress) :
    writeSectionChecked ring.fields closed progress =
      some
        ((writeSection ring closed progress).1, (writeSection ring closed progress).2.ring.fields,
          (writeSection ring closed progress).2.progress) := by
  rw [writeSectionChecked, ring.fields_availableWrite, Option.bind_some]
  unfold writeSection
  by_cases noRoom : ring.availableWrite = 0
  · simp only [if_pos noRoom]
  · simp only [if_neg noRoom]
    rw [writeBytesChecked_fields (Nat.le_refl _)]
    rfl

end Loops

/-! ## Passes as runs of the queue -/

section Passes

variable {fields after : RingFields} {closed : Bool} {len : Nat} {progress moved : WriteProgress}

theorem exec_of_readBytesChecked {count : Nat} {bytes : List UInt8}
    (read : readBytesChecked count fields = some (bytes, after)) :
    ringMachine.exec fields (bytes.map .pop) = some after := by
  induction count generalizing fields bytes with
  | zero =>
      cases read
      rfl
  | succ count ih =>
      obtain ⟨⟨byte, middle⟩, first, rest⟩ := Option.bind_eq_some_iff.mp read
      obtain ⟨⟨later, last⟩, laterRead, same⟩ := Option.map_eq_some_iff.mp rest
      cases same
      have stepped : ringMachine.next fields (.pop byte) = some middle := by
        change fields.readChecked.bind _ = _
        rw [first]
        exact if_pos rfl
      exact Machine.exec_cons_eq_some.mpr ⟨middle, stepped, ih laterRead⟩

theorem exec_of_writeBytesChecked {count : Nat} {finished : Bool}
    (written : writeBytesChecked count fields progress = some (after, moved, finished)) :
    ∃ bytes : List UInt8, ringMachine.exec fields (bytes.map .push) = some after := by
  induction count generalizing fields progress with
  | zero =>
      cases written
      exact ⟨[], rfl⟩
  | succ count ih =>
      rw [writeBytesChecked] at written
      by_cases atEnd : progress.writeSize = progress.buf.length
      · rw [dif_pos atEnd] at written
        cases written
        exact ⟨[], rfl⟩
      · rw [dif_neg atEnd] at written
        obtain ⟨middle, first, rest⟩ := Option.bind_eq_some_iff.mp written
        obtain ⟨bytes, executed⟩ := ih rest
        have more := WriteProgress.more atEnd
        refine ⟨progress.buf[progress.writeSize] :: bytes, ?_⟩
        exact Machine.exec_cons_eq_some.mpr ⟨middle, first, executed⟩

theorem exec_of_readSectionChecked {returned : Option (List UInt8)}
    (passed : readSectionChecked fields closed len = some (returned, after)) :
    ∃ bytes : List UInt8, ringMachine.exec fields (bytes.map .pop) = some after := by
  obtain ⟨available, -, pass⟩ := Option.bind_eq_some_iff.mp passed
  dsimp only at pass
  split at pass
  · cases closed <;> cases pass
    · exact ⟨[], rfl⟩
    · exact ⟨[], rfl⟩
  · obtain ⟨⟨bytes, last⟩, read, same⟩ := Option.map_eq_some_iff.mp pass
    cases same
    exact ⟨bytes, exec_of_readBytesChecked read⟩

theorem exec_of_writeSectionChecked {returned : Option Nat}
    (passed : writeSectionChecked fields closed progress = some (returned, after, moved)) :
    ∃ bytes : List UInt8, ringMachine.exec fields (bytes.map .push) = some after := by
  obtain ⟨loopWrite, -, pass⟩ := Option.bind_eq_some_iff.mp passed
  split at pass
  · cases pass
    exact ⟨[], rfl⟩
  · obtain ⟨⟨last, reached, finished⟩, written, same⟩ := Option.map_eq_some_iff.mp pass
    cases same
    exact exec_of_writeBytesChecked written

end Passes

theorem ring_of_pipeNext {state target : PipeState} {action : PipeAction}
    (outside : ∀ call, action ≠ .lockSection call)
    (stepped : pipeNext state action = some target) :
    target.ring = state.ring := by
  cases action with
  | read readable len =>
      obtain ⟨-, entered⟩ := Option.ite_none_right_eq_some.mp stepped
      cases entry : readEntry readable len <;> rw [entry] at entered
      · rw [← Option.some.inj entered]
        rfl
      · rw [← Option.some.inj entered]
        rfl
  | write readable buf =>
      obtain ⟨-, entered⟩ := Option.ite_none_right_eq_some.mp stepped
      cases entry : writeEntry readable state.closed buf <;>
        rw [entry] at entered
      · rw [← Option.some.inj entered]
        rfl
      · rw [← Option.some.inj entered]
        rfl
  | lockSection call => exact absurd rfl (outside call)
  | drop readable =>
      cases readable with
      | true =>
          obtain ⟨-, dropped⟩ := Option.ite_none_right_eq_some.mp stepped
          rw [← Option.some.inj dropped]
      | false =>
          obtain ⟨-, dropped⟩ := Option.ite_none_right_eq_some.mp stepped
          rw [← Option.some.inj dropped]

theorem exec_ring_of_pipeNext {state target : PipeState} {action : PipeAction}
    (stepped : pipeNext state action = some target) :
    ∃ actions,
      ringMachine.exec state.ring.fields actions =
        some target.ring.fields := by
  by_cases inside : ∃ call, action = .lockSection call
  · obtain ⟨call, rfl⟩ := inside
    cases found : state.calls[call]? with
    | none => simp [pipeNext, found] at stepped
    | some current =>
        cases current with
        | reading len =>
            obtain ⟨bytes, executed⟩ :=
              exec_of_readSectionChecked (readSectionChecked_fields state.closed len)
            refine ⟨bytes.map .pop, ?_⟩
            rw [executed]
            simp only [pipeNext, found] at stepped
            cases outcome : readSection state.ring state.closed len with
            | mk returned after =>
                rw [outcome] at stepped
                cases returned <;> rw [← Option.some.inj stepped]
        | writing progress =>
            obtain ⟨bytes, executed⟩ :=
              exec_of_writeSectionChecked (writeSectionChecked_fields state.closed progress)
            refine ⟨bytes.map .push, ?_⟩
            simp only [pipeNext, found] at stepped
            rw [executed, ← Option.some.inj stepped]
        | readReturned len result => simp [pipeNext, found] at stepped
        | writeReturned buf result => simp [pipeNext, found] at stepped
  · have unchanged := ring_of_pipeNext (not_exists.mp inside) stepped
    refine ⟨[], ?_⟩
    rw [unchanged]
    rfl

theorem reachable_ring_of_pipe {state : PipeState} (reached : pipeMachine.Reachable state) :
    ringMachine.Reachable state.ring.fields := by
  apply Machine.Reachable.invariant _ _ reached
  · intro start isNew
    rw [isNew]
    exact Machine.Reachable.start rfl
  · intro source action target _ holds stepped
    obtain ⟨actions, executed⟩ := exec_ring_of_pipeNext stepped
    exact holds.exec executed

/-- The ring buffer is a bounded queue.  In all states that guarded calls
reach, its fields are those of a queue, and seen through its contents its
runs are the runs of a queue of 256 bytes, with the same calls enabled.  A
pipe keeps its buffer within these states, and a pass of `Pipe::read` or
`Pipe::write` with a check in front of every `read_byte` and `write_byte`
does what it does without. -/
theorem ringBuffer_refines_queue : (∀ fields, ringMachine.Reachable fields → fields.IsQueue) ∧
    (∀ actions,
      (ringMachine.exec .new actions).map RingFields.contents =
        (boundedQueue 256).exec [] actions) ∧
    (∀ state, pipeMachine.Reachable state → ringMachine.Reachable state.ring.fields) ∧
    ∀ state : PipeState,
      (∀ len,
        readSectionChecked state.ring.fields state.closed len =
          some
            ((readSection state.ring state.closed len).1,
              (readSection state.ring state.closed len).2.fields)) ∧
      ∀ progress,
        writeSectionChecked state.ring.fields state.closed progress =
          some
            ((writeSection state.ring state.closed progress).1,
              (writeSection state.ring state.closed progress).2.ring.fields,
              (writeSection state.ring state.closed progress).2.progress) := by
  refine ⟨?_, ?_, ?_, ?_⟩
  · intro fields reached
    obtain ⟨ring, rfl⟩ := exists_ring_of_reachable reached
    exact ring.isQueue_fields
  · intro actions
    exact ringMachine_refines.exec (Machine.Reachable.start rfl) actions
  · intro state reached
    exact reachable_ring_of_pipe reached
  · intro state
    exact ⟨readSectionChecked_fields state.closed, writeSectionChecked_fields state.closed⟩

end Vegar.File

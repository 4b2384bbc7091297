import Vegar.Fs.Dirent

/-!
# Filling a directory buffer

Any sequence of calls of `DirBuffer::write_entry`.  A call that is accepted
writes the `linux_dirent64` of 24 bytes, the name from inside it on, and the
zero byte.
-/

namespace Vegar.Fs

open Vegar.Lib

/-- `FileType` of `api/src/imp/fs/ctl.rs`. -/
inductive FileType where
  | unknown
  | fifo
  | chr
  | dir
  | blk
  | reg
  | lnk
  | socket
  deriving DecidableEq, Repr

/-- `d_type as _`: the `DT_` numbers. -/
def FileType.discriminant : FileType → UInt8
  | .unknown => 0
  | .fifo => 1
  | .chr => 2
  | .dir => 4
  | .blk => 6
  | .reg => 8
  | .lnk => 10
  | .socket => 12

/-- `FileType::from`. -/
def FileType.ofAx : AxFileType → FileType
  | .dir => .dir
  | .file => .reg
  | .other => .unknown

/-- A call of `write_entry`, and what it writes into the padding of the
structure. -/
structure EntryCall where
  dType : FileType
  name : List UInt8
  padding : Vector UInt8 5
  nameShort : name.length ≤ 63
  nameNulFree : (0 : UInt8) ∉ name

namespace EntryCall

def view (call : EntryCall) : Dirent := ⟨call.dType.discriminant, call.name⟩

def writesAt (call : EntryCall) (offset : Nat) : List (Nat × List UInt8) :=
  [(offset, direntHeader (recordLenOf call.name) call.dType.discriminant ++ call.padding.toList),
    (offset + nameOffset, call.name),
    (offset + nameOffset + call.name.length, [0])]

end EntryCall

namespace DirBuffer

/-- `remaining_space`. -/
def remainingSpace (buffer : DirBuffer) : Nat := buffer.buf.length - buffer.offset

/-- `write_entry`: the result, and the buffer. -/
def writeCall (buffer : DirBuffer) (call : EntryCall) : Bool × DirBuffer :=
  let len := recordLenOf call.name
  if buffer.remainingSpace < len then (false, buffer)
  else
    (true,
      { buf := (call.writesAt buffer.offset).foldl
            (fun buf write => patch buf write.1 write.2) buffer.buf
        offset := buffer.offset + len })

def writeCalls (buffer : DirBuffer) : List EntryCall → DirBuffer × List EntryCall
  | [] => (buffer, [])
  | call :: rest =>
      let (accepted, after) := buffer.writeCall call
      let (final, later) := after.writeCalls rest
      (final, if accepted then call :: later else later)

theorem writeEntry_eq_writeCall (buffer : DirBuffer) (padding : Vector UInt8 5) (entry : DirEntry) :
    buffer.writeEntry padding entry =
      (let (accepted, after) := buffer.writeCall
          ⟨.ofAx entry.entryType, entry.name, padding, entry.nameShort, entry.nameNulFree⟩
      if accepted then some after else none) := by
  have sameType :
      (FileType.ofAx entry.entryType).discriminant =
        entry.entryType.dType := by
    cases entry.entryType <;> rfl
  by_cases full : buffer.buf.length - buffer.offset < entry.recordLen
  · have refused : buffer.remainingSpace < recordLenOf entry.name := full
    simp [writeEntry, writeCall, full, refused]
  · have accepted : ¬ buffer.remainingSpace < recordLenOf entry.name := full
    simp only [writeEntry, writeCall, if_neg full, if_neg accepted, EntryCall.writesAt, sameType]
    rfl

/-! ## One call -/

structure Filled (buffer : DirBuffer) (accepted : List EntryCall) : Prop where
  inside : buffer.offset ≤ buffer.buf.length
  aligned : buffer.offset % 8 = 0
  framed : Framed decodeDirent (buffer.buf.take buffer.offset) (accepted.map EntryCall.view)

structure CallSound (buffer : DirBuffer) (call : EntryCall) : Prop where
  rejectedIff : (buffer.writeCall call).1 = false ↔ buffer.remainingSpace < recordLenOf call.name
  rejectedKeeps : (buffer.writeCall call).1 = false → (buffer.writeCall call).2 = buffer
  writesInside :
    (buffer.writeCall call).1 = true →
      ∀ write ∈ call.writesAt buffer.offset,
        buffer.offset ≤ write.1 ∧ write.1 + write.2.length ≤ (buffer.writeCall call).2.offset ∧
          (buffer.writeCall call).2.offset ≤ buffer.buf.length
  earlierKept : (buffer.writeCall call).2.buf.take buffer.offset = buffer.buf.take buffer.offset

section OneCall

variable {buffer : DirBuffer} {call : EntryCall} {accepted : List EntryCall}

theorem writeCall_of_full (full : buffer.remainingSpace < recordLenOf call.name) :
    buffer.writeCall call = (false, buffer) := by
  simp only [writeCall, if_pos full]

theorem writeCall_of_fits (inside : buffer.offset ≤ buffer.buf.length)
    (fits : ¬ buffer.remainingSpace < recordLenOf call.name) :
    ∃ filling,
      buffer.writeCall call =
        (true,
          ⟨buffer.buf.take buffer.offset ++ recordBytes call.dType.discriminant call.name filling ++
              buffer.buf.drop (buffer.offset + recordLenOf call.name),
            buffer.offset + recordLenOf call.name⟩) ∧
        nameOffset + call.name.length + 1 + filling.length =
          recordLenOf call.name := by
  have room :
      buffer.offset + recordLenOf call.name ≤ buffer.buf.length := by
    unfold remainingSpace at fits
    omega
  obtain ⟨filling, patched, total⟩ :=
    patch_entry call.dType.discriminant call.name call.padding room
  refine ⟨filling, ?_, total⟩
  rw [← patched]
  simp only [writeCall, if_neg fits]
  rfl

theorem writesAt_inside {offset : Nat} {write : Nat × List UInt8}
    (member : write ∈ call.writesAt offset) :
    offset ≤ write.1 ∧
      write.1 + write.2.length ≤ offset + recordLenOf call.name := by
  have header := header_le_recordLenOf call.name
  have nameRoom := name_lt_recordLenOf call.name
  simp only [EntryCall.writesAt, List.mem_cons, List.not_mem_nil, or_false] at member
  rcases member with rfl | rfl | rfl
  · simp only [List.length_append, length_direntHeader, nameOffset, Vector.length_toList]
    omega
  · simp only
    omega
  · simp only [List.length_singleton]
    omega

theorem Filled.callSound (filled : Filled buffer accepted) (call : EntryCall) :
    CallSound buffer call := by
  have inside := filled.inside
  by_cases full : buffer.remainingSpace < recordLenOf call.name
  · have isCall := writeCall_of_full full
    refine ⟨?_, ?_, ?_, ?_⟩ <;> rw [isCall]
    · exact iff_of_true rfl full
    · intro _
      rfl
    · intro impossible
      cases impossible
  · obtain ⟨filling, isCall, total⟩ := writeCall_of_fits inside full
    refine ⟨?_, ?_, ?_, ?_⟩ <;> rw [isCall]
    · exact iff_of_false Bool.noConfusion full
    · intro impossible
      cases impossible
    · intro _ write member
      obtain ⟨above, below⟩ := writesAt_inside member
      refine ⟨above, below, ?_⟩
      unfold remainingSpace at full
      dsimp only
      omega
    · have frontLength : (buffer.buf.take buffer.offset).length = buffer.offset := by
        rw [List.length_take, Nat.min_eq_left inside]
      simp only [List.append_assoc]
      exact List.take_left' frontLength

theorem Filled.writeCall (filled : Filled buffer accepted) (call : EntryCall) :
    (buffer.writeCall call).2.buf.length = buffer.buf.length ∧
      Filled (buffer.writeCall call).2
        (accepted ++
          if (buffer.writeCall call).1 then [call] else []) := by
  have inside := filled.inside
  by_cases full : buffer.remainingSpace < recordLenOf call.name
  · rw [writeCall_of_full full]
    refine ⟨rfl, ?_⟩
    simpa using filled
  · obtain ⟨filling, isCall, total⟩ := writeCall_of_fits inside full
    have isRecord :=
      isRecord_recordBytes call.dType.discriminant call.nameShort call.nameNulFree total
    have recordLength := @length_recordBytes call.dType.discriminant call.name filling total
    have written := congrArg (fun outcome => outcome.2.buf) isCall
    have offset := congrArg (fun outcome => outcome.2.offset) isCall
    have isAccepted := congrArg Prod.fst isCall
    dsimp only at written offset isAccepted
    have sameLength : (buffer.writeCall call).2.buf.length = buffer.buf.length := by
      rw [written, List.length_append, List.length_append, recordLength,
        List.length_take, List.length_drop]
      unfold remainingSpace at full
      omega
    refine ⟨sameLength, ⟨?_, ?_, ?_⟩⟩
    · rw [sameLength, offset]
      unfold remainingSpace at full
      omega
    · have aligned := filled.aligned
      rw [offset, recordLenOf, nextMultipleOf8]
      omega
    · rw [isAccepted, if_pos rfl, offset, ← recordLength, List.map_append]
      exact framed_take_written inside filled.framed isRecord written

end OneCall

/-! ## Sequences of calls -/

theorem Filled.new (buf : List UInt8) : Filled ⟨buf, 0⟩ [] where
  inside := Nat.zero_le _
  aligned := rfl
  framed := by
    rw [List.take_zero, List.map_nil]
    exact .nil

theorem Filled.writeCalls {buffer : DirBuffer} {accepted : List EntryCall}
    (filled : Filled buffer accepted) (calls : List EntryCall) :
    (buffer.writeCalls calls).1.buf.length = buffer.buf.length ∧
      Filled (buffer.writeCalls calls).1 (accepted ++ (buffer.writeCalls calls).2) := by
  induction calls generalizing buffer accepted with
  | nil =>
      simpa [DirBuffer.writeCalls] using filled
  | cons call rest ih =>
      obtain ⟨sameLength, filledAfter⟩ := filled.writeCall call
      obtain ⟨lengthFinal, filledFinal⟩ := ih filledAfter
      refine ⟨lengthFinal.trans sameLength, ?_⟩
      rw [List.append_assoc] at filledFinal
      simp only [DirBuffer.writeCalls]
      cases isAccepted : (buffer.writeCall call).1 with
      | false =>
          rw [isAccepted] at filledFinal
          exact filledFinal
      | true =>
          rw [isAccepted] at filledFinal
          exact filledFinal

end DirBuffer

/-- After any sequence of calls on a buffer of any length the bytes below
`offset` decode to the accepted calls in order.  The next call writes inside
the buffer and behind the earlier records, from a multiple of eight on, or it
is rejected for lack of space and changes nothing. -/
theorem dirBuffer_decodes_to_accepted
    (buf : List UInt8) (calls : List EntryCall) (next : EntryCall) :
    let (buffer, accepted) := DirBuffer.writeCalls ⟨buf, 0⟩ calls
    buffer.buf.length = buf.length ∧
      decodeDirents (buffer.buf.take buffer.offset) = some (accepted.map EntryCall.view) ∧
      buffer.offset % 8 = 0 ∧
      buffer.CallSound next := by
  obtain ⟨sameLength, filled⟩ := (DirBuffer.Filled.new buf).writeCalls calls
  exact
    ⟨sameLength, filled.framed.decodeAll_eq (Nat.le_refl _), filled.aligned, filled.callSound next⟩

end Vegar.Fs

import Vegar.Lib.Framed
import Mathlib.Tactic.Common

/-!
# Directory records

`DirBuffer` of `api/src/imp/fs/ctl.rs` at the level of bytes.  A record is a
header of 19 bytes, the name, a zero byte, and whatever fills it up to a
multiple of eight.  `decodeDirent` is the reader's side.
-/

namespace Vegar.Fs

open Vegar.Lib

/-- `axfs::api::FileType`, as far as the conversion tells its values apart. -/
inductive AxFileType where
  | dir
  | file
  | other
  deriving DecidableEq, Repr

/-- `FileType::from`: `DT_DIR`, `DT_REG` or `DT_UNKNOWN`. -/
def AxFileType.dType : AxFileType → UInt8
  | .dir => 4
  | .file => 8
  | .other => 0

/-- `axfs::fops::DirEntry`, whose name is at most 63 bytes long and ends
before the first zero byte. -/
structure DirEntry where
  entryType : AxFileType
  name : List UInt8
  nameShort : name.length ≤ 63
  nameNulFree : (0 : UInt8) ∉ name

structure Dirent where
  dType : UInt8
  name : List UInt8
  deriving DecidableEq, Repr

def DirEntry.view (entry : DirEntry) : Dirent := ⟨entry.entryType.dType, entry.name⟩

/-- `offset_of!(linux_dirent64, d_name)`. -/
def nameOffset : Nat := 19

/-- `next_multiple_of(8)`. -/
def nextMultipleOf8 (length : Nat) : Nat := (length + 7) / 8 * 8

def DirEntry.recordLen (entry : DirEntry) : Nat :=
  nextMultipleOf8 (nameOffset + entry.name.length + 1)

def patch (buf : List UInt8) (offset : Nat) (data : List UInt8) :
    List UInt8 :=
  buf.take offset ++ data ++ buf.drop (offset + data.length)

/-- The fields of a `linux_dirent64` in front of the name: `d_ino`, `d_off`,
`d_reclen` and `d_type`, lowest bytes first. -/
def direntHeader (reclen : Nat) (dType : UInt8) : List UInt8 :=
  [1, 0, 0, 0, 0, 0, 0, 0, 0, 0, 0, 0, 0, 0, 0, 0,
    .ofNat (reclen % 256), .ofNat (reclen / 256 % 256),
    dType]

/-- `DirBuffer`. -/
structure DirBuffer where
  buf : List UInt8
  offset : Nat

/-- `write_entry`, or `none` where it returns `false`.  A `linux_dirent64` is
24 bytes long; `padding` is what its last five bytes are written with. -/
def DirBuffer.writeEntry (buffer : DirBuffer) (padding : Vector UInt8 5) (entry : DirEntry) :
    Option DirBuffer :=
  let len := entry.recordLen
  if buffer.buf.length - buffer.offset < len then none
  else
    let header := direntHeader len entry.entryType.dType ++ padding.toList
    let withHeader := patch buffer.buf buffer.offset header
    let namePos := buffer.offset + nameOffset
    let withName := patch withHeader namePos entry.name
    some ⟨patch withName (namePos + entry.name.length) [0], buffer.offset + len⟩

def decodeDirent (bytes : List UInt8) : Option (Dirent × Nat) := do
  let low ← bytes[16]?
  let high ← bytes[17]?
  let dType ← bytes[18]?
  let reclen := low.toNat + 256 * high.toNat
  if bytes.length < reclen then none
  else
    let area := (bytes.take reclen).drop nameOffset
    if (0 : UInt8) ∈ area then
      some (⟨dType, area.takeWhile (· != 0)⟩, reclen)
    else none

def decodeDirents (bytes : List UInt8) : Option (List Dirent) :=
  decodeAll decodeDirent bytes.length bytes

/-! ## Writing and reading back -/

theorem le_nextMultipleOf8 (length : Nat) :
    length ≤ nextMultipleOf8 length := by
  unfold nextMultipleOf8
  omega

def recordLenOf (name : List UInt8) : Nat := nextMultipleOf8 (nameOffset + name.length + 1)

section Lengths

variable (name : List UInt8)

theorem name_lt_recordLenOf :
    nameOffset + name.length + 1 ≤ recordLenOf name :=
  le_nextMultipleOf8 _

theorem header_le_recordLenOf : 24 ≤ recordLenOf name := by
  unfold recordLenOf nextMultipleOf8 nameOffset
  omega

theorem recordLenOf_lt {name : List UInt8} (short : name.length ≤ 63) :
    recordLenOf name < 65536 := by
  unfold recordLenOf nextMultipleOf8 nameOffset
  omega

end Lengths

theorem DirEntry.header_le_recordLen (entry : DirEntry) : 24 ≤ entry.recordLen :=
  header_le_recordLenOf entry.name

@[simp]
theorem length_direntHeader (reclen : Nat) (dType : UInt8) :
    (direntHeader reclen dType).length = nameOffset :=
  rfl

theorem patch_middle {before old after data : List UInt8} {offset : Nat}
    (atOffset : before.length = offset) (sameLength : old.length = data.length) :
    patch (before ++ old ++ after) offset data =
      before ++ data ++ after := by
  subst atOffset
  have kept :
      (before ++ old ++ after).drop (before.length + data.length) =
        after := by
    rw [← sameLength, ← List.length_append, List.drop_left]
  rw [patch, kept, List.append_assoc before old, List.take_left]

private theorem exists_cut {α : Type} {items : List α} {count : Nat} (fits : count ≤ items.length) :
    ∃ front back, items = front ++ back ∧ front.length = count :=
  ⟨items.take count, items.drop count, (List.take_append_drop _ _).symm,
    by rw [List.length_take, Nat.min_eq_left fits]⟩

def recordBytes (dType : UInt8) (name filling : List UInt8) : List UInt8 :=
  direntHeader (recordLenOf name) dType ++ name ++ [0] ++ filling

theorem length_recordBytes {dType : UInt8} {name filling : List UInt8}
    (total : nameOffset + name.length + 1 + filling.length = recordLenOf name) :
    (recordBytes dType name filling).length = recordLenOf name := by
  simp only [recordBytes, List.length_append, length_direntHeader, List.length_singleton]
  exact total

/-- The three writes of an entry into the place of a record: the header with
its padding, the name over the padding, and the zero byte. -/
private theorem patch_record (dType : UInt8) (name : List UInt8) (padding : Vector UInt8 5)
    {before record behind : List UInt8} {offset : Nat}
    (atOffset : before.length = offset)
    (recordLength : record.length = recordLenOf name) :
    ∃ filling,
      patch
          (patch
            (patch (before ++ record ++ behind) offset
              (direntHeader (recordLenOf name) dType ++ padding.toList))
            (offset + nameOffset) name)
          (offset + nameOffset + name.length) [0] =
        before ++ recordBytes dType name filling ++ behind ∧
        nameOffset + name.length + 1 + filling.length =
          recordLenOf name := by
  have nameRoom := name_lt_recordLenOf name
  have headerLength := length_direntHeader (recordLenOf name) dType
  unfold recordBytes
  generalize direntHeader (recordLenOf name) dType = header at headerLength ⊢
  have paddingLength : padding.toList.length = 5 := by simp
  have structFits : nameOffset + 5 ≤ record.length := by
    rw [recordLength]
    exact header_le_recordLenOf name
  obtain ⟨struct, rest, rfl, structLength⟩ := exists_cut structFits
  rw [List.length_append, structLength] at recordLength
  have nameFits : name.length ≤ (padding.toList ++ rest).length := by
    rw [List.length_append, paddingLength]
    omega
  obtain ⟨oldName, afterName, isArea, oldNameLength⟩ := exists_cut nameFits
  have areaLength := congrArg List.length isArea
  rw [List.length_append, List.length_append, paddingLength, oldNameLength] at areaLength
  have nulFits : 1 ≤ afterName.length := by omega
  obtain ⟨oldNul, filling, rfl, oldNulLength⟩ := exists_cut nulFits
  rw [List.length_append, oldNulLength] at areaLength
  have headerWritten :
      patch (before ++ (struct ++ rest) ++ behind) offset (header ++ padding.toList) =
        (before ++ header) ++ oldName ++ (oldNul ++ filling ++ behind) := by
    have cut : before ++ (struct ++ rest) ++ behind = before ++ struct ++ (rest ++ behind) := by
      simp only [List.append_assoc]
    have sameLength : struct.length = (header ++ padding.toList).length := by
      rw [List.length_append, headerLength, paddingLength, structLength]
    rw [cut, patch_middle atOffset sameLength]
    have regroup :
        padding.toList ++ (rest ++ behind) = oldName ++ (oldNul ++ filling ++ behind) := by
      rw [← List.append_assoc, isArea, List.append_assoc]
    simp only [List.append_assoc] at regroup ⊢
    rw [regroup]
  have nameWritten :
      patch ((before ++ header) ++ oldName ++ (oldNul ++ filling ++ behind))
          (offset + nameOffset) name =
        (before ++ header ++ name) ++ oldNul ++ (filling ++ behind) := by
    have atName : (before ++ header).length = offset + nameOffset := by
      rw [List.length_append, atOffset, headerLength]
    rw [patch_middle atName oldNameLength]
    simp only [List.append_assoc]
  have atNul :
      (before ++ header ++ name).length =
        offset + nameOffset + name.length := by
    rw [List.length_append, List.length_append, atOffset, headerLength]
  refine ⟨filling, ?_, ?_⟩
  · rw [headerWritten, nameWritten, patch_middle atNul oldNulLength]
    simp only [List.append_assoc]
  · omega

/-- The three writes into a buffer with room for them: the bytes in front and
behind are kept, and between them stands the record. -/
theorem patch_entry (dType : UInt8) (name : List UInt8) (padding : Vector UInt8 5)
    {buf : List UInt8} {offset : Nat}
    (fits : offset + recordLenOf name ≤ buf.length) :
    ∃ filling,
      patch
          (patch (patch buf offset (direntHeader (recordLenOf name) dType ++ padding.toList))
            (offset + nameOffset) name)
          (offset + nameOffset + name.length) [0] =
        buf.take offset ++ recordBytes dType name filling ++ buf.drop (offset + recordLenOf name) ∧
        nameOffset + name.length + 1 + filling.length =
          recordLenOf name := by
  have inside : offset ≤ buf.length := by omega
  obtain ⟨before, tail, isBuf, beforeLength⟩ := exists_cut inside
  have tailFits : recordLenOf name ≤ tail.length := by
    have := congrArg List.length isBuf
    rw [List.length_append] at this
    omega
  obtain ⟨record, behind, rfl, recordLength⟩ := exists_cut tailFits
  have isBefore : buf.take offset = before := by
    rw [isBuf, ← beforeLength, List.take_left]
  have isBehind : buf.drop (offset + recordLenOf name) = behind := by
    have frontLength : (before ++ record).length = offset + recordLenOf name := by
      rw [List.length_append, beforeLength, recordLength]
    rw [isBuf, ← List.append_assoc, ← frontLength, List.drop_left]
  rw [isBefore, isBehind, isBuf, ← List.append_assoc]
  exact patch_record dType name padding beforeLength recordLength

theorem framed_take_written {Item : Type} {decodeOne : List UInt8 → Option (Item × Nat)}
    {buf after record behind : List UInt8} {offset : Nat} {items : List Item}
    {item : Item} (inside : offset ≤ buf.length)
    (framed : Framed decodeOne (buf.take offset) items)
    (isRecord : IsRecord decodeOne record item)
    (written : after = buf.take offset ++ record ++ behind) :
    Framed decodeOne (after.take (offset + record.length)) (items ++ [item]) := by
  have frontLength : (buf.take offset ++ record).length = offset + record.length := by
    rw [List.length_append, List.length_take, Nat.min_eq_left inside]
  rw [written, List.take_left' frontLength]
  exact framed.snoc isRecord

theorem DirBuffer.writeEntry_eq_some
    {buffer after : DirBuffer} {padding : Vector UInt8 5} {entry : DirEntry}
    (inside : buffer.offset ≤ buffer.buf.length)
    (written : buffer.writeEntry padding entry = some after) :
    ∃ filling behind,
      after.buf =
        buffer.buf.take buffer.offset ++
          recordBytes entry.entryType.dType entry.name filling ++ behind ∧
        nameOffset + entry.name.length + 1 + filling.length = entry.recordLen ∧
        after.buf.length = buffer.buf.length ∧
        after.offset = buffer.offset + entry.recordLen := by
  unfold writeEntry at written
  by_cases full : buffer.buf.length - buffer.offset < entry.recordLen
  · simp [full] at written
  · simp only [if_neg full, Option.some.injEq] at written
    subst written
    have fits :
        buffer.offset + recordLenOf entry.name ≤ buffer.buf.length := by
      change ¬ _ < recordLenOf entry.name at full
      omega
    obtain ⟨filling, patched, total⟩ := patch_entry entry.entryType.dType entry.name padding fits
    refine ⟨filling, _, patched, total, ?_, rfl⟩
    have lengths := congrArg List.length patched
    rw [List.length_append, List.length_append, length_recordBytes total,
      List.length_take, List.length_drop] at lengths
    refine lengths.trans ?_
    omega

theorem isRecord_recordBytes (dType : UInt8) {name filling : List UInt8} (short : name.length ≤ 63)
    (nulFree : (0 : UInt8) ∉ name)
    (total : nameOffset + name.length + 1 + filling.length = recordLenOf name) :
    IsRecord decodeDirent (recordBytes dType name filling) ⟨dType, name⟩ where
  nonempty := by
    simp [recordBytes, direntHeader]
  decodes rest := by
    have recordLength := @length_recordBytes dType name filling total
    have small := recordLenOf_lt short
    have reclen :
        (UInt8.ofNat (recordLenOf name % 256)).toNat +
            256 * (UInt8.ofNat (recordLenOf name / 256 % 256)).toNat =
          recordLenOf name := by
      simp only [UInt8.toNat_ofNat']
      omega
    have area :
        ((recordBytes dType name filling ++ rest).take (recordLenOf name)).drop nameOffset =
          name ++ ([0] ++ filling) := by
      rw [List.take_left' recordLength, recordBytes, List.append_assoc,
        List.append_assoc, List.drop_left' (length_direntHeader _ _)]
    have isName : (name ++ ([0] ++ filling)).takeWhile (· != 0) = name := by
      rw [List.takeWhile_append_of_pos]
      · simp
      · intro byte member
        have notNul : byte ≠ 0 := by
          rintro rfl
          exact nulFree member
        simpa using notNul
    have long :
        ¬ (recordBytes dType name filling ++ rest).length <
            recordLenOf name := by
      rw [List.length_append, recordLength]
      omega
    have low :
        (recordBytes dType name filling ++ rest)[16]? = some (.ofNat (recordLenOf name % 256)) := by
      simp [recordBytes, direntHeader]
    have high :
        (recordBytes dType name filling ++ rest)[17]? =
            some (.ofNat (recordLenOf name / 256 % 256)) := by
      simp [recordBytes, direntHeader]
    have isType : (recordBytes dType name filling ++ rest)[18]? = some dType := by
      simp [recordBytes, direntHeader]
    rw [decodeDirent, low, high, isType]
    simp only [Option.bind_eq_bind, Option.bind_some, reclen, if_neg long, area, isName]
    rw [if_pos (by simp), recordLength]

end Vegar.Fs

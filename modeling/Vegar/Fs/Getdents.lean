import Vegar.Fs.Dirent
import Vegar.Outcome

/-!
# Listing a directory

`sys_getdents64` of `api/src/imp/fs/ctl.rs` on an open `Directory`.  The
directory is read entry by entry; an entry that was read but did not fit is
parked and comes first in the next call.
-/

namespace Vegar.Fs

open Vegar.Lib

/-- `Directory`: what `read_dir` has not returned yet, and `last_dirent`. -/
structure Directory where
  unread : List DirEntry
  lastDirent : Option DirEntry

namespace Directory

/-- `Directory::new` on a directory with these entries. -/
def new (listing : List DirEntry) : Directory := ⟨listing, none⟩

def undelivered (dir : Directory) : List DirEntry := dir.lastDirent.toList ++ dir.unread

end Directory

section Getdents

variable (padding : Vector UInt8 5)

/-- The loop of `sys_getdents64`: the buffer and the directory it ends
with. -/
def readEntries : List DirEntry → DirBuffer → DirBuffer × Directory
  | [], buffer => (buffer, ⟨[], none⟩)
  | entry :: rest, buffer =>
      match buffer.writeEntry padding entry with
      | none => (buffer, ⟨rest, some entry⟩)
      | some after => readEntries rest after

/-- The part of `sys_getdents64` after the retry of a parked entry. -/
def fillBuffer (unread : List DirEntry) (buffer : DirBuffer) :
    LinuxResult Nat × Directory × List UInt8 :=
  let (after, dir) := readEntries padding unread buffer
  if dir.lastDirent.isSome ∧ after.offset = 0 then
    (.error .EINVAL, dir, after.buf)
  else (.ok after.offset, dir, after.buf)

/-- `sys_getdents64`, given the user's buffer and the directory: the result,
the directory afterwards and the contents of the buffer. -/
def sysGetdents64 (dir : Directory) (buf : List UInt8) :
    LinuxResult Nat × Directory × List UInt8 :=
  match dir.lastDirent with
  | none => fillBuffer padding dir.unread ⟨buf, 0⟩
  | some entry =>
      match DirBuffer.writeEntry ⟨buf, 0⟩ padding entry with
      | none => (.error .EINVAL, dir, buf)
      | some buffer => fillBuffer padding dir.unread buffer

/-- The entries a reader decodes from what a call left in its buffer: none for
an error, and for `Ok(n)` those of the first `n` bytes, which may not
decode. -/
def decodedBy (call : LinuxResult Nat × Directory × List UInt8) : Option (List Dirent) :=
  match call with
  | (.error _, _, _) => some []
  | (.ok count, _, buf) => decodeDirents (buf.take count)

def getdentsCalls :
    List (List UInt8) → Directory × Option (List Dirent) → Directory × Option (List Dirent)
  | [], state => state
  | buf :: rest, (dir, decoded) =>
      getdentsCalls rest
        ((sysGetdents64 padding dir buf).2.1,
          do return (← decoded) ++ (← decodedBy (sysGetdents64 padding dir buf)))

/-! ## One call -/

structure Holds (buffer : DirBuffer) (written : List DirEntry) : Prop where
  inside : buffer.offset ≤ buffer.buf.length
  framed : Framed decodeDirent (buffer.buf.take buffer.offset) (written.map DirEntry.view)
  fits : ∀ entry ∈ written, entry.recordLen ≤ buffer.offset
  offsetZero : buffer.offset = 0 ↔ written = []

variable {padding}

theorem Holds.new (buf : List UInt8) : Holds ⟨buf, 0⟩ [] where
  inside := Nat.zero_le _
  framed := by
    rw [List.take_zero, List.map_nil]
    exact .nil
  fits := by simp
  offsetZero := by simp

theorem Holds.writeEntry {buffer after : DirBuffer} {written : List DirEntry} {entry : DirEntry}
    (holds : Holds buffer written)
    (stored : buffer.writeEntry padding entry = some after) :
    Holds after (written ++ [entry]) ∧ after.buf.length = buffer.buf.length := by
  obtain ⟨filling, behind, contents, total, sameLength, offset⟩ :=
    DirBuffer.writeEntry_eq_some holds.inside stored
  have isRecord :=
    isRecord_recordBytes entry.entryType.dType entry.nameShort entry.nameNulFree total
  have recordLength :
      (recordBytes entry.entryType.dType entry.name filling).length =
        entry.recordLen :=
    length_recordBytes total
  have positive := entry.header_le_recordLen
  have inside := holds.inside
  refine ⟨⟨?_, ?_, ?_, ?_⟩, sameLength⟩
  · have lengths := congrArg List.length contents
    rw [List.length_append, List.length_append, recordLength, List.length_take] at lengths
    omega
  · rw [offset, ← recordLength, List.map_append]
    exact framed_take_written inside holds.framed isRecord contents
  · intro stored member
    rcases List.mem_append.mp member with earlier | last
    · have := holds.fits stored earlier
      omega
    · rw [List.mem_singleton.mp last]
      omega
  · constructor
    · intro isZero
      omega
    · intro impossible
      simp at impossible

theorem DirBuffer.writeEntry_eq_none {buffer : DirBuffer} {entry : DirEntry} :
    buffer.writeEntry padding entry = none ↔
      buffer.buf.length - buffer.offset < entry.recordLen := by
  unfold writeEntry
  by_cases full : buffer.buf.length - buffer.offset < entry.recordLen
  · simp [full]
  · simp [full]

theorem readEntries_spec (unread : List DirEntry) {buffer : DirBuffer} {written : List DirEntry}
    (holds : Holds buffer written) :
    ∃ added,
      Holds (readEntries padding unread buffer).1 (written ++ added) ∧
        (readEntries padding unread buffer).1.buf.length = buffer.buf.length ∧
        unread = added ++ (readEntries padding unread buffer).2.undelivered ∧
        ((readEntries padding unread buffer).2.lastDirent = none →
          (readEntries padding unread buffer).2.unread = []) ∧
        ∀ parked,
          (readEntries padding unread buffer).2.lastDirent = some parked →
            buffer.buf.length - (readEntries padding unread buffer).1.offset <
              parked.recordLen := by
  induction unread generalizing buffer written with
  | nil =>
      refine ⟨[], ?_, rfl, rfl, fun _ => rfl, ?_⟩
      · rw [List.append_nil]
        exact holds
      · intro parked impossible
        cases impossible
  | cons entry rest ih =>
      cases stored : buffer.writeEntry padding entry with
      | none =>
          simp only [readEntries, stored]
          refine ⟨[], ?_, trivial, rfl, ?_, ?_⟩
          · rw [List.append_nil]
            exact holds
          · intro impossible
            cases impossible
          · rintro parked ⟨⟩
            exact DirBuffer.writeEntry_eq_none.mp stored
      | some after =>
          obtain ⟨holdsAfter, sameLength⟩ := holds.writeEntry stored
          obtain ⟨added, holdsFinal, lengthFinal, split, finished, parked⟩ := ih holdsAfter
          simp only [readEntries, stored]
          refine ⟨entry :: added, ?_, lengthFinal.trans sameLength, ?_, finished, ?_⟩
          · rw [List.append_assoc, List.singleton_append] at holdsFinal
            exact holdsFinal
          · rw [List.cons_append, ← split]
          · rw [← sameLength]
            exact parked

structure CallSpec (dir : Directory) (buf : List UInt8)
    (call : LinuxResult Nat × Directory × List UInt8) : Prop where
  decodes :
    ∃ added,
      decodedBy call = some (added.map DirEntry.view) ∧
        dir.undelivered = added ++ call.2.1.undelivered
  errorIff :
    ∀ error,
      call.1 = .error error ↔
        error = .EINVAL ∧ ∃ next, dir.undelivered.head? = some next ∧ buf.length < next.recordLen
  errorKeeps : ∀ error, call.1 = .error error → call.2.1.undelivered = dir.undelivered
  zeroOnlyAtEnd : call.1 = .ok 0 → dir.undelivered = []

theorem fillBuffer_spec {dir : Directory} {buf : List UInt8} {buffer : DirBuffer}
    {written unread : List DirEntry}
    (holds : Holds buffer written)
    (sameLength : buffer.buf.length = buf.length)
    (split : dir.undelivered = written ++ unread) :
    CallSpec dir buf (fillBuffer padding unread buffer) := by
  obtain ⟨added, holdsFinal, lengthFinal, unreadSplit, finished, parked⟩ :=
    @readEntries_spec padding unread buffer written holds
  unfold fillBuffer
  cases ended : readEntries padding unread buffer with
  | mk after dirAfter =>
      rw [ended] at holdsFinal lengthFinal unreadSplit finished parked
      have total : dir.undelivered = (written ++ added) ++ dirAfter.undelivered := by
        rw [split, unreadSplit, List.append_assoc]
      simp only
      by_cases refused : dirAfter.lastDirent.isSome ∧ after.offset = 0
      · rw [if_pos refused]
        have nothing : written ++ added = [] := holdsFinal.offsetZero.mp refused.2
        obtain ⟨next, isParked⟩ := Option.isSome_iff_exists.mp refused.1
        rw [nothing, List.nil_append] at total
        have tooLong := parked next isParked
        rw [refused.2, Nat.sub_zero, sameLength] at tooLong
        have isFirst : dir.undelivered.head? = some next := by
          rw [total, Directory.undelivered, isParked]
          rfl
        refine ⟨⟨[], rfl, total⟩, ?_, fun _ _ => total.symm, ?_⟩
        · intro error
          constructor
          · rintro ⟨⟩
            exact ⟨rfl, next, isFirst, tooLong⟩
          · rintro ⟨rfl, -⟩
            rfl
        · intro impossible
          cases impossible
      · rw [if_neg refused]
        have inside : after.offset ≤ buf.length := by
          rw [← sameLength, ← lengthFinal]
          exact holdsFinal.inside
        have atEnd : written ++ added = [] → dir.undelivered = [] := by
          intro nothing
          have isZero := holdsFinal.offsetZero.mpr nothing
          have notParked : dirAfter.lastDirent = none := by
            by_contra isParked
            exact refused ⟨Option.isSome_iff_ne_none.mpr isParked, isZero⟩
          rw [total, nothing, Directory.undelivered, notParked, finished notParked]
          rfl
        refine ⟨⟨written ++ added, ?_, total⟩, ?_, ?_, ?_⟩
        · have decoded :
              decodeDirents (after.buf.take after.offset) =
                some ((written ++ added).map DirEntry.view) :=
            holdsFinal.framed.decodeAll_eq (Nat.le_refl _)
          exact decoded
        · intro error
          constructor
          · intro impossible
            cases impossible
          · rintro ⟨-, next, isFirst, tooLong⟩
            cases stored : written ++ added with
            | nil =>
                rw [atEnd stored] at isFirst
                cases isFirst
            | cons first rest =>
                rw [total, stored, List.cons_append, List.head?_cons, Option.some.injEq] at isFirst
                have fits := holdsFinal.fits first (by rw [stored]; simp)
                rw [isFirst] at fits
                exact absurd (Nat.le_trans fits inside) (Nat.not_le.mpr tooLong)
        · intro error impossible
          cases impossible
        · intro isZero
          injection isZero with isZero
          exact atEnd (holdsFinal.offsetZero.mp isZero)

theorem sysGetdents64_spec (dir : Directory) (buf : List UInt8) :
    CallSpec dir buf (sysGetdents64 padding dir buf) := by
  unfold sysGetdents64
  cases isParked : dir.lastDirent with
  | none =>
      apply fillBuffer_spec (Holds.new buf) rfl
      rw [Directory.undelivered, isParked]
      rfl
  | some entry =>
      have first : dir.undelivered = entry :: dir.unread := by
        rw [Directory.undelivered, isParked]
        rfl
      simp only
      cases stored : DirBuffer.writeEntry ⟨buf, 0⟩ padding entry with
      | none =>
          have tooLong : buf.length < entry.recordLen := DirBuffer.writeEntry_eq_none.mp stored
          refine ⟨⟨[], rfl, rfl⟩, ?_, fun _ _ => rfl, ?_⟩
          · intro error
            constructor
            · rintro ⟨⟩
              exact ⟨rfl, entry, by rw [first, List.head?_cons], tooLong⟩
            · rintro ⟨rfl, -⟩
              rfl
          · intro impossible
            cases impossible
      | some buffer =>
          obtain ⟨holds, sameLength⟩ := (Holds.new buf).writeEntry stored
          exact fillBuffer_spec holds sameLength first

/-! ## Sequences of calls -/

theorem getdentsCalls_split (bufs : List (List UInt8)) (dir : Directory) (decoded : List Dirent) :
    ∃ delivered,
      (getdentsCalls padding bufs (dir, some decoded)).2 =
          some (decoded ++ delivered.map DirEntry.view) ∧
        dir.undelivered =
          delivered ++ (getdentsCalls padding bufs (dir, some decoded)).1.undelivered := by
  induction bufs generalizing dir decoded with
  | nil =>
      refine ⟨[], ?_, rfl⟩
      rw [getdentsCalls, List.map_nil, List.append_nil]
  | cons buf rest ih =>
      obtain ⟨added, isAdded, split⟩ := (@sysGetdents64_spec padding dir buf).decodes
      obtain ⟨later, isLater, laterSplit⟩ :=
        ih (sysGetdents64 padding dir buf).2.1 (decoded ++ added.map DirEntry.view)
      have stepped :
          getdentsCalls padding (buf :: rest) (dir, some decoded) =
            getdentsCalls padding rest
              ((sysGetdents64 padding dir buf).2.1, some (decoded ++ added.map DirEntry.view)) := by
        rw [getdentsCalls, isAdded]
        rfl
      refine ⟨added ++ later, ?_, ?_⟩
      · rw [stepped, isLater, List.map_append, List.append_assoc]
      · rw [stepped, split, laterSplit, List.append_assoc]

end Getdents

/-- Over any sequence of calls on a directory, every buffer of a successful
call decodes, and what readers decode is a first part of the listing.  The
next call fails exactly when the next entry does not fit in its whole buffer,
with `EINVAL` and without losing an entry, and it returns zero only after the
last entry. -/
theorem getdents_delivers_listing (padding : Vector UInt8 5) (listing : List DirEntry)
    (bufs : List (List UInt8)) (buf : List UInt8) :
    ∃ dir decoded,
      getdentsCalls padding bufs (.new listing, some []) = (dir, some decoded) ∧
        decoded <+: listing.map DirEntry.view ∧
        (∀ error,
          (sysGetdents64 padding dir buf).1 = .error error ↔
            error = .EINVAL ∧
              ∃ next, listing[decoded.length]? = some next ∧ buf.length < next.recordLen) ∧
        (∀ error, (sysGetdents64 padding dir buf).1 = .error error →
          (sysGetdents64 padding dir buf).2.1.undelivered = dir.undelivered) ∧
        ((sysGetdents64 padding dir buf).1 = .ok 0 → decoded = listing.map DirEntry.view) := by
  obtain ⟨delivered, isDecoded, split⟩ := @getdentsCalls_split padding bufs (.new listing) []
  rw [List.nil_append] at isDecoded
  generalize getdentsCalls padding bufs (.new listing, some []) = state at isDecoded split ⊢
  obtain ⟨dir, decoded⟩ := state
  change decoded = some (delivered.map DirEntry.view) at isDecoded
  change listing = delivered ++ dir.undelivered at split
  have spec := @sysGetdents64_spec padding dir buf
  have isNext : dir.undelivered.head? = listing[delivered.length]? := by
    rw [split, List.getElem?_append_right (Nat.le_refl _), Nat.sub_self, List.head?_eq_getElem?]
  refine ⟨dir, delivered.map DirEntry.view, by rw [isDecoded], ?_, ?_, spec.errorKeeps, ?_⟩
  · rw [split, List.map_append]
    exact List.prefix_append _ _
  · intro error
    rw [spec.errorIff error, isNext, List.length_map]
  · intro isZero
    rw [spec.zeroOnlyAtEnd isZero, List.append_nil] at split
    rw [split]

end Vegar.Fs

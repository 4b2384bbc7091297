import Vegar.Fs.Getdents

/-!
# Listing a directory that fails to be read

`sys_getdents64` with every way it can fail.  A `read_dir` that fails does
not move the cursor of the directory, but the entries in the buffer by then
have been taken off it, and the parked entry off `last_dirent`.
-/

namespace Vegar.Fs

namespace FailingDisk

section Calls

variable (padding : Vector UInt8 5) (failure : Nat → Option LinuxError)

/-- The loop of `sys_getdents64`, where the `n`th call of `read_dir` fails with
`failure n`. -/
def readEntries : Nat → List DirEntry → DirBuffer → LinuxResult Unit × DirBuffer × Directory
  | index, [], buffer =>
      match failure index with
      | some error => (.error error, buffer, ⟨[], none⟩)
      | none => (.ok (), buffer, ⟨[], none⟩)
  | index, entry :: rest, buffer =>
      match failure index with
      | some error => (.error error, buffer, ⟨entry :: rest, none⟩)
      | none =>
          match buffer.writeEntry padding entry with
          | none => (.ok (), buffer, ⟨rest, some entry⟩)
          | some after => readEntries (index + 1) rest after

/-- The part of `sys_getdents64` after the retry of a parked entry. -/
def fillBuffer (unread : List DirEntry) (buffer : DirBuffer) :
    LinuxResult Nat × Directory × List UInt8 :=
  match readEntries padding failure 0 unread buffer with
  | (.error error, after, dir) => (.error error, dir, after.buf)
  | (.ok (), after, dir) =>
      if dir.lastDirent.isSome ∧ after.offset = 0 then
        (.error .EINVAL, dir, after.buf)
      else (.ok after.offset, dir, after.buf)

/-- The part of `sys_getdents64` on an open directory. -/
def listEntries (dir : Directory) (buf : List UInt8) :
    LinuxResult Nat × Directory × List UInt8 :=
  match dir.lastDirent with
  | none => fillBuffer padding failure dir.unread ⟨buf, 0⟩
  | some entry =>
      match DirBuffer.writeEntry ⟨buf, 0⟩ padding entry with
      | none => (.error .EINVAL, dir, buf)
      | some buffer => fillBuffer padding failure dir.unread buffer

/-- `sys_getdents64`, given what `get_as_mut_slice` and `from_fd` return: the
result, and the directory afterwards. -/
def sysGetdents64 (buf : LinuxResult (List UInt8)) (fd : LinuxResult Unit)
    (dir : Directory) : LinuxResult Nat × Directory :=
  match buf with
  | .error error => (.error error, dir)
  | .ok bytes =>
      match fd with
      | .error error => (.error error, dir)
      | .ok () =>
          let (result, after, _) := listEntries padding failure dir bytes
          (result, after)

end Calls

def spaceOf : List DirEntry → Nat
  | [] => 0
  | entry :: rest => entry.recordLen + spaceOf rest

/-- A `read_dir` of the call fails after some entries were put into the
buffer: the parked one, or those of the calls before. -/
def FailsBehindEntries (failure : Nat → Option LinuxError) (dir : Directory)
    (buf : List UInt8) : Prop :=
  ∃ count ≤ dir.unread.length,
    (failure count).isSome ∧ (∀ earlier < count, failure earlier = none) ∧
      spaceOf (dir.lastDirent.toList ++ dir.unread.take count) ≤ buf.length ∧
      dir.lastDirent.toList ++ dir.unread.take count ≠ []

/-! ## The loop -/

section Loop

variable {padding : Vector UInt8 5} {failure : Nat → Option LinuxError}

theorem exists_writeEntry_iff {buffer : DirBuffer} {entry : DirEntry}
    (inside : buffer.offset ≤ buffer.buf.length) :
    (∃ after, buffer.writeEntry padding entry = some after) ↔
      buffer.offset + entry.recordLen ≤ buffer.buf.length := by
  rw [← Option.isSome_iff_exists, Option.isSome_iff_ne_none, ne_eq, DirBuffer.writeEntry_eq_none]
  omega

theorem readEntries_of_ok {index : Nat} {unread : List DirEntry} {buffer : DirBuffer}
    (worked : (readEntries padding failure index unread buffer).1 = .ok ()) :
    (readEntries padding failure index unread buffer).2 =
      Fs.readEntries padding unread buffer := by
  induction unread generalizing index buffer with
  | nil =>
      cases fails : failure index with
      | none => simp only [readEntries, fails, Fs.readEntries]
      | some error => simp [readEntries, fails] at worked
  | cons entry rest ih =>
      cases fails : failure index with
      | none =>
          cases stored : buffer.writeEntry padding entry with
          | none => simp only [readEntries, fails, stored, Fs.readEntries]
          | some after =>
              simp only [readEntries, fails, stored] at worked
              simp only [readEntries, fails, stored, Fs.readEntries]
              exact ih worked
      | some error => simp [readEntries, fails] at worked

/-- The loop fails at the given call of `read_dir`, behind entries that went
into the buffer. -/
structure FailsAt (failure : Nat → Option LinuxError) (index : Nat)
    (unread : List DirEntry) (buffer : DirBuffer) (count : Nat)
    (error : LinuxError) : Prop where
  inside : count ≤ unread.length
  fails : failure (index + count) = some error
  earlierWork : ∀ earlier < count, failure (index + earlier) = none
  fits : buffer.offset + spaceOf (unread.take count) ≤ buffer.buf.length

theorem failsAt_zero {index : Nat} {unread : List DirEntry} {buffer : DirBuffer}
    {error : LinuxError} (inside : buffer.offset ≤ buffer.buf.length)
    (fails : failure index = some error) :
    FailsAt failure index unread buffer 0 error where
  inside := Nat.zero_le _
  fails := fails
  earlierWork := by
    intro earlier impossible
    omega
  fits := inside

theorem failsAt_succ_iff {index count : Nat} {entry : DirEntry} {rest : List DirEntry}
    {buffer after : DirBuffer} {error : LinuxError}
    (works : failure index = none)
    (sameLength : after.buf.length = buffer.buf.length)
    (offset : after.offset = buffer.offset + entry.recordLen) :
    FailsAt failure index (entry :: rest) buffer (count + 1) error ↔
      FailsAt failure (index + 1) rest after count error := by
  have shift : ∀ step, index + (step + 1) = index + 1 + step := by
    intro step
    omega
  constructor
  · rintro ⟨inside, fails, earlierWork, fits⟩
    refine ⟨?_, ?_, ?_, ?_⟩
    · rw [List.length_cons] at inside
      omega
    · rw [← shift]
      exact fails
    · intro earlier before
      rw [← shift]
      exact earlierWork (earlier + 1) (by omega)
    · rw [List.take_succ_cons, spaceOf] at fits
      omega
  · rintro ⟨inside, fails, earlierWork, fits⟩
    refine ⟨?_, ?_, ?_, ?_⟩
    · rw [List.length_cons]
      omega
    · rw [shift]
      exact fails
    · intro earlier before
      cases earlier with
      | zero => exact works
      | succ earlier =>
          rw [shift]
          exact earlierWork earlier (by omega)
    · rw [List.take_succ_cons, spaceOf]
      omega

/-- Where the loop fails, it has put a first part of the entries into the
buffer, and `read_dir` failed behind them. -/
theorem readEntries_of_error {index : Nat} {unread : List DirEntry} {buffer : DirBuffer}
    {error : LinuxError} (inside : buffer.offset ≤ buffer.buf.length)
    (failed : (readEntries padding failure index unread buffer).1 = .error error) :
    ∃ count, FailsAt failure index unread buffer count error := by
  induction unread generalizing index buffer with
  | nil =>
      cases fails : failure index with
      | none => simp [readEntries, fails] at failed
      | some found =>
          simp only [readEntries, fails] at failed
          obtain rfl := Except.error.inj failed
          exact ⟨0, failsAt_zero inside fails⟩
  | cons entry rest ih =>
      cases fails : failure index with
      | none =>
          cases stored : buffer.writeEntry padding entry with
          | none => simp [readEntries, fails, stored] at failed
          | some after =>
              simp only [readEntries, fails, stored] at failed
              obtain ⟨_, _, _, _, sameLength, offset⟩ := DirBuffer.writeEntry_eq_some inside stored
              have room := (exists_writeEntry_iff inside).mp ⟨after, stored⟩
              obtain ⟨count, failsLater⟩ := ih (by omega) failed
              exact ⟨count + 1, (failsAt_succ_iff fails sameLength offset).mpr failsLater⟩
      | some found =>
          simp only [readEntries, fails] at failed
          obtain rfl := Except.error.inj failed
          exact ⟨0, failsAt_zero inside fails⟩

theorem readEntries_of_failsAt {index count : Nat} {unread : List DirEntry} {buffer : DirBuffer}
    {error : LinuxError} (inside : buffer.offset ≤ buffer.buf.length)
    (failsAt : FailsAt failure index unread buffer count error) :
    (readEntries padding failure index unread buffer).1 = .error error ∧
      (readEntries padding failure index unread buffer).2.2 = ⟨unread.drop count, none⟩ := by
  induction count generalizing index unread buffer with
  | zero =>
      have fails := failsAt.fails
      rw [Nat.add_zero] at fails
      cases unread with
      | nil => simp [readEntries, fails]
      | cons entry rest => simp [readEntries, fails]
  | succ count ih =>
      cases unread with
      | nil =>
          have impossible := failsAt.inside
          simp at impossible
      | cons entry rest =>
          have works := failsAt.earlierWork 0 (Nat.zero_lt_succ _)
          rw [Nat.add_zero] at works
          have room : buffer.offset + entry.recordLen ≤ buffer.buf.length := by
            have fits := failsAt.fits
            rw [List.take_succ_cons, spaceOf] at fits
            omega
          obtain ⟨after, stored⟩ := (@exists_writeEntry_iff padding _ _ inside).mpr room
          obtain ⟨_, _, _, _, sameLength, offset⟩ := DirBuffer.writeEntry_eq_some inside stored
          have failsLater := (failsAt_succ_iff works sameLength offset).mp failsAt
          simp only [readEntries, works, stored, List.drop_succ_cons]
          exact ih (by omega) failsLater

/-! ## One call -/

section Filling

variable {unread : List DirEntry} {buffer : DirBuffer}

theorem fillBuffer_of_failsAt {count : Nat} {error : LinuxError}
    (inside : buffer.offset ≤ buffer.buf.length)
    (failsAt : FailsAt failure 0 unread buffer count error) :
    (fillBuffer padding failure unread buffer).1 = .error error ∧
      (fillBuffer padding failure unread buffer).2.1.undelivered =
        unread.drop count := by
  obtain ⟨failed, isDir⟩ := @readEntries_of_failsAt padding _ _ _ _ _ _ inside failsAt
  rcases loop : readEntries padding failure 0 unread buffer with ⟨result, after, dirAfter⟩
  rw [loop] at failed isDir
  dsimp only at failed isDir
  subst failed isDir
  simp only [fillBuffer, loop, true_and]
  rfl

theorem fillBuffer_of_ok (worked : (readEntries padding failure 0 unread buffer).1 = .ok ()) :
    fillBuffer padding failure unread buffer =
      Fs.fillBuffer padding unread buffer := by
  have sameLoop := readEntries_of_ok worked
  rcases loop : readEntries padding failure 0 unread buffer with ⟨result, after, dirAfter⟩
  rw [loop] at worked sameLoop
  dsimp only at worked
  subst worked
  simp only [fillBuffer, loop, Fs.fillBuffer, ← sameLoop]

end Filling

theorem spaceOf_append (front back : List DirEntry) :
    spaceOf (front ++ back) = spaceOf front + spaceOf back := by
  induction front with
  | nil => rw [List.nil_append, spaceOf, Nat.zero_add]
  | cons entry rest ih =>
      rw [List.cons_append, spaceOf, spaceOf, ih, Nat.add_assoc]

section OneCall

variable {dir : Directory} {buf : List UInt8} {buffer : DirBuffer}

theorem failsBehindEntries_iff (sameLength : buffer.buf.length = buf.length)
    (space : buffer.offset = spaceOf dir.lastDirent.toList) :
    FailsBehindEntries failure dir buf ↔
      ∃ count error, FailsAt failure 0 dir.unread buffer count error ∧
        dir.lastDirent.toList ++ dir.unread.take count ≠ [] := by
  unfold FailsBehindEntries
  constructor
  · rintro ⟨count, inside, fails, earlierWork, fits, someEntry⟩
    obtain ⟨error, isError⟩ := Option.isSome_iff_exists.mp fails
    refine ⟨count, error, ⟨inside, ?_, ?_, ?_⟩, someEntry⟩
    · rw [Nat.zero_add]
      exact isError
    · intro earlier before
      rw [Nat.zero_add]
      exact earlierWork earlier before
    · rw [spaceOf_append] at fits
      omega
  · rintro ⟨count, error, ⟨inside, fails, earlierWork, fits⟩, someEntry⟩
    rw [Nat.zero_add] at fails
    refine ⟨count, inside, ?_, ?_, ?_, someEntry⟩
    · rw [fails]
      rfl
    · intro earlier before
      rw [← Nat.zero_add earlier]
      exact earlierWork earlier before
    · rw [spaceOf_append]
      omega

theorem drop_eq_undelivered_iff {count : Nat} (inside : count ≤ dir.unread.length) :
    dir.unread.drop count = dir.undelivered ↔
      dir.lastDirent.toList ++ dir.unread.take count = [] := by
  unfold Directory.undelivered
  constructor
  · intro same
    have lengths := congrArg List.length same
    rw [List.length_append, List.length_drop] at lengths
    apply List.eq_nil_of_length_eq_zero
    rw [List.length_append, List.length_take]
    omega
  · intro nothing
    obtain ⟨noneParked, noneRead⟩ := List.append_eq_nil_iff.mp nothing
    have kept := List.take_append_drop count dir.unread
    rw [noneRead, List.nil_append] at kept
    rw [kept, noneParked, List.nil_append]

theorem fillBuffer_keeps_iff (holds : Holds buffer dir.lastDirent.toList)
    (sameLength : buffer.buf.length = buf.length)
    (space : buffer.offset = spaceOf dir.lastDirent.toList) :
    (∀ error,
        (fillBuffer padding failure dir.unread buffer).1 = .error error →
          (fillBuffer padding failure dir.unread buffer).2.1.undelivered = dir.undelivered) ↔
      ¬ FailsBehindEntries failure dir buf := by
  have inside := holds.inside
  rw [failsBehindEntries_iff sameLength space]
  constructor
  · rintro keeps ⟨count, error, failsAt, someEntry⟩
    obtain ⟨failed, left⟩ := @fillBuffer_of_failsAt padding _ _ _ _ _ inside failsAt
    have same := left.symm.trans (keeps error failed)
    exact someEntry ((drop_eq_undelivered_iff failsAt.inside).mp same)
  · intro noLoss error isError
    cases loop : (readEntries padding failure 0 dir.unread buffer).1 with
    | error found =>
        obtain ⟨count, failsAt⟩ := readEntries_of_error inside loop
        obtain ⟨-, left⟩ := @fillBuffer_of_failsAt padding _ _ _ _ _ inside failsAt
        rw [left]
        apply (drop_eq_undelivered_iff failsAt.inside).mpr
        by_contra someEntry
        exact noLoss ⟨count, found, failsAt, someEntry⟩
    | ok =>
        rw [fillBuffer_of_ok loop] at isError ⊢
        exact (fillBuffer_spec holds sameLength rfl).errorKeeps error isError

theorem listEntries_keeps_iff :
    (∀ error,
        (listEntries padding failure dir buf).1 = .error error →
          (listEntries padding failure dir buf).2.1.undelivered = dir.undelivered) ↔
      ¬ FailsBehindEntries failure dir buf := by
  unfold listEntries
  cases isParked : dir.lastDirent with
  | none =>
      apply fillBuffer_keeps_iff _ rfl
      · rw [isParked]
        rfl
      · rw [isParked]
        exact Holds.new buf
  | some entry =>
      simp only
      cases stored : DirBuffer.writeEntry ⟨buf, 0⟩ padding entry with
      | none =>
          have tooLong : buf.length < entry.recordLen := DirBuffer.writeEntry_eq_none.mp stored
          refine iff_of_true (fun _ _ => rfl) ?_
          rintro ⟨count, -, -, -, fits, -⟩
          rw [isParked, spaceOf_append, Option.toList_some, spaceOf] at fits
          omega
      | some buffer =>
          obtain ⟨holds, sameLength⟩ := (Holds.new buf).writeEntry stored
          obtain ⟨_, _, _, _, _, offset⟩ := DirBuffer.writeEntry_eq_some (Nat.zero_le _) stored
          apply fillBuffer_keeps_iff _ sameLength
          · rw [isParked, Option.toList_some, spaceOf, spaceOf]
            dsimp only at offset
            omega
          · rw [isParked]
            exact holds

end OneCall

end Loop

end FailingDisk

/-- A `sys_getdents64` that fails, in whatever way, leaves the undelivered
entries as they were, exactly if no `read_dir` fails behind entries that are
in the buffer. -/
theorem sysGetdents64_failure_keeps_iff
    (padding : Vector UInt8 5) (failure : Nat → Option LinuxError)
    (buf : LinuxResult (List UInt8)) (fd : LinuxResult Unit)
    (dir : Directory) :
    (∀ error,
        (FailingDisk.sysGetdents64 padding failure buf fd dir).1 = .error error →
          (FailingDisk.sysGetdents64 padding failure buf fd dir).2.undelivered = dir.undelivered) ↔
      ∀ bytes, buf = .ok bytes → fd = .ok () →
        ¬ FailingDisk.FailsBehindEntries failure dir bytes := by
  cases buf with
  | error error => exact iff_of_true (fun _ _ => rfl) nofun
  | ok bytes =>
      cases fd with
      | error error => exact iff_of_true (fun _ _ => rfl) nofun
      | ok =>
          refine (@FailingDisk.listEntries_keeps_iff padding failure dir bytes).trans ?_
          constructor
          · rintro noLoss _ ⟨⟩ -
            exact noLoss
          · intro noLoss
            exact noLoss bytes rfl rfl

/-- The second `read_dir` fails with `EIO`: the entry in front of it is in the
buffer of a call that reports no bytes, and no later call delivers it. -/
theorem sysGetdents64_failure_loses_entry :
    ∃ entry : DirEntry,
      FailingDisk.sysGetdents64 (Vector.replicate 5 0)
          (fun index => if index = 1 then some (.other 5) else none)
          (.ok (List.replicate 64 0)) (.ok ()) (.new [entry]) =
        (.error (.other 5), ⟨[], none⟩) ∧
      (Directory.new [entry]).undelivered = [entry] := by
  exact ⟨⟨.file, [97], by decide, by decide⟩, rfl, rfl⟩

end Vegar.Fs

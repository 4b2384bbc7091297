import Mathlib.Algebra.GroupWithZero.Nat
import Mathlib.Algebra.Ring.Int.Defs
import Vegar.Outcome

/-!
# Moving in a file

`sys_lseek` of `api/src/imp/fs/io.rs`.  The signed offset of the caller becomes
an unsigned one for `SEEK_SET` and stays signed for the others; the unsigned
position becomes a signed result.  `axfs` keeps positions up to `2 ^ 64`.
-/

namespace Vegar.File

/-- `SeekFrom`. -/
inductive SeekFrom where
  | start (offset : BitVec 64)
  | current (offset : BitVec 64)
  | fromEnd (offset : BitVec 64)
  deriving DecidableEq, Repr

/-- An open file of `axfs`: its size, and where it stands. -/
structure SeekableFile where
  size : BitVec 64
  position : BitVec 64
  deriving DecidableEq, Repr

/-- `checked_add_signed`. -/
def checkedAddSigned (base offset : BitVec 64) : Option (BitVec 64) :=
  let sum := (base.toNat : Int) + offset.toInt
  if 0 ≤ sum ∧ sum < 2 ^ 64 then some (base + offset) else none

namespace SeekableFile

def destination (file : SeekableFile) : SeekFrom → Option (BitVec 64)
  | .start offset => some offset
  | .current offset => checkedAddSigned file.position offset
  | .fromEnd offset => checkedAddSigned file.size offset

/-- `axfs::fops::File::seek`. -/
def seek (file : SeekableFile) (pos : SeekFrom) : AxResult (BitVec 64) × SeekableFile :=
  match file.destination pos with
  | none => (.error .InvalidInput, file)
  | some found => (.ok found, { file with position := found })

end SeekableFile

/-- The meaning of `whence`. -/
def seekFrom (whence : BitVec 32) (offset : BitVec 64) :
    LinuxResult SeekFrom :=
  if whence = 0 then .ok (.start offset)
  else if whence = 1 then .ok (.current offset)
  else if whence = 2 then .ok (.fromEnd offset)
  else .error .EINVAL

/-- `sys_lseek` on an open file: the result as an `isize`, and the file. -/
def sysLseek (linuxError : AxError → LinuxError) (file : SeekableFile)
    (offset : BitVec 64) (whence : BitVec 32) :
    LinuxResult (BitVec 64) × SeekableFile :=
  match seekFrom whence offset with
  | .error error => (.error error, file)
  | .ok pos =>
      match file.seek pos with
      | (.error error, file) => (.error (linuxError error), file)
      | (.ok off, file) => (.ok off, file)

/-! ## Offsets the caller can use -/

def SeekableFile.base (file : SeekableFile) (whence : BitVec 32) : Nat :=
  if whence = 0 then 0
  else if whence = 1 then file.position.toNat
  else file.size.toNat

def SeekableFile.target (file : SeekableFile) (offset : BitVec 64) (whence : BitVec 32) : Int :=
  file.base whence + offset.toInt

structure UsableOffset (file : SeekableFile) (target : Int)
    (result : LinuxResult (BitVec 64) × SeekableFile) : Prop where
  usable : ∀ off, result.1 = .ok off → 0 ≤ off.toInt ∧ off.toInt = result.2.position.toNat
  unchanged : ∀ error, result.1 = .error error → result.2 = file
  beforeStart : target < 0 → ∃ error, result.1 = .error error

section Seeking

variable {linuxError : AxError → LinuxError} {file : SeekableFile}
  {offset : BitVec 64} {whence : BitVec 32} {pos : SeekFrom} {target : Int}

theorem toNat_of_checkedAddSigned
    {base sum : BitVec 64} (added : checkedAddSigned base offset = some sum) :
    (sum.toNat : Int) = base.toNat + offset.toInt := by
  obtain ⟨⟨positive, bounded⟩, isSum⟩ := Option.ite_none_right_eq_some.mp added
  obtain rfl := Option.some.inj isSum
  rw [BitVec.toInt_eq_toNat_cond] at positive bounded ⊢
  rw [BitVec.toNat_add]
  omega

theorem checkedAddSigned_eq_none {base : BitVec 64} (small : base.toNat < 2 ^ 63)
    (refused : checkedAddSigned base offset = none) :
    (base.toNat : Int) + offset.toInt < 0 := by
  have bounded := @BitVec.toInt_lt 64 offset
  by_contra positive
  have inside :
      0 ≤ (base.toNat : Int) + offset.toInt ∧ (base.toNat : Int) + offset.toInt < 2 ^ 64 := by
    omega
  rw [checkedAddSigned, if_pos inside] at refused
  cases refused

theorem usableOffset_of_error (error : LinuxError) :
    UsableOffset file target (.error error, file) where
  usable := nofun
  unchanged _ _ := rfl
  beforeStart _ := ⟨error, rfl⟩

/-- A seek that succeeds is in order where the position is an `isize`, and not
in front of the file. -/
theorem usableOffset_of_ok_iff (found : BitVec 64) :
    UsableOffset file target (.ok found, { file with position := found }) ↔
      found.toNat < 2 ^ 63 ∧ 0 ≤ target := by
  constructor
  · intro usable
    constructor
    · have positive := (usable.usable found rfl).1
      rw [BitVec.toInt_eq_toNat_cond] at positive
      omega
    · by_contra negative
      obtain ⟨error, impossible⟩ := usable.beforeStart (by omega)
      cases impossible
  · rintro ⟨small, positive⟩
    refine ⟨?_, nofun, ?_⟩
    · rintro off ⟨⟩
      rw [BitVec.toInt_eq_toNat_cond]
      dsimp only
      omega
    · intro negative
      omega

theorem seek_signed_usable_iff {base : BitVec 64} (small : base.toNat < 2 ^ 63)
    (counts : file.destination pos = checkedAddSigned base offset) :
    UsableOffset file (base.toNat + offset.toInt)
        (match file.seek pos with
          | (.error error, file) => (.error (linuxError error), file)
          | (.ok off, file) => (.ok off, file)) ↔
      (base.toNat : Int) + offset.toInt < 2 ^ 63 := by
  rw [SeekableFile.seek, counts]
  cases added : checkedAddSigned base offset with
  | none =>
      have negative := checkedAddSigned_eq_none small added
      refine iff_of_true (usableOffset_of_error _) ?_
      omega
  | some sum =>
      have isSum := toNat_of_checkedAddSigned added
      refine (usableOffset_of_ok_iff sum).trans ?_
      omega

end Seeking

/-- `sys_lseek` returns an offset the caller can use, or changes nothing,
exactly if `SEEK_SET` is not given a negative offset and the position asked
for is below `2 ^ 63`. -/
theorem sysLseek_usable_iff (linuxError : AxError → LinuxError) (file : SeekableFile)
    (sizeSmall : file.size.toNat < 2 ^ 63)
    (positionSmall : file.position.toNat < 2 ^ 63)
    (offset : BitVec 64) (whence : BitVec 32) :
    UsableOffset file (file.target offset whence) (sysLseek linuxError file offset whence) ↔
      (whence = 0 → 0 ≤ offset.toInt) ∧
        (whence = 1 ∨ whence = 2 → file.target offset whence < 2 ^ 63) := by
  unfold sysLseek seekFrom SeekableFile.target SeekableFile.base
  by_cases isSet : whence = 0
  · subst isSet
    have positive := @BitVec.toInt_eq_toNat_cond 64 offset
    have bounded := offset.isLt
    refine (usableOffset_of_ok_iff offset).trans ?_
    simp
    omega
  · by_cases isCurrent : whence = 1
    · simp only [if_neg isSet, if_pos isCurrent]
      refine (seek_signed_usable_iff positionSmall rfl).trans ?_
      simp [isCurrent]
    · by_cases isEnd : whence = 2
      · simp only [if_neg isSet, if_neg isCurrent, if_pos isEnd]
        refine (seek_signed_usable_iff sizeSmall rfl).trans ?_
        simp [isEnd]
      · simp only [if_neg isSet, if_neg isCurrent, if_neg isEnd]
        refine iff_of_true (usableOffset_of_error _) ?_
        exact ⟨fun same => (isSet same).elim, fun either => (either.elim isCurrent isEnd).elim⟩

/-- One byte back from the third. -/
theorem sysLseek_usable_iff_back :
    (sysLseek (fun _ => .EINVAL) ⟨8, 3⟩ (-1) 1).1 = .ok 2 ∧
      UsableOffset ⟨8, 3⟩ (SeekableFile.target ⟨8, 3⟩ (-1) 1)
        (sysLseek (fun _ => .EINVAL) ⟨8, 3⟩ (-1) 1) :=
  ⟨rfl,
    (sysLseek_usable_iff (fun _ => .EINVAL) ⟨8, 3⟩ (by decide) (by decide)
      (-1) 1).mpr ⟨by decide, by decide⟩⟩

/-- `SEEK_SET` to -1 succeeds with the result -1, and so does `SEEK_CUR` over
the end of the signed numbers with a negative result. -/
theorem sysLseek_negative_results :
    sysLseek (fun _ => .EINVAL) ⟨8, 3⟩ (-1) 0 = (.ok (-1), ⟨8, -1⟩) ∧
      ¬ UsableOffset ⟨8, 3⟩ (SeekableFile.target ⟨8, 3⟩ (-1) 0)
        (sysLseek (fun _ => .EINVAL) ⟨8, 3⟩ (-1) 0) ∧
      ¬ UsableOffset ⟨8, 3⟩ (SeekableFile.target ⟨8, 3⟩ (BitVec.intMax 64) 1)
        (sysLseek (fun _ => .EINVAL) ⟨8, 3⟩ (BitVec.intMax 64) 1) := by
  refine ⟨rfl, ?_, ?_⟩
  · intro usable
    have positive := (usable.usable (-1) rfl).1
    revert positive
    decide
  · intro usable
    have positive := (usable.usable (3 + BitVec.intMax 64) rfl).1
    revert positive
    decide

end Vegar.File

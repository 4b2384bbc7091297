import Vegar.Task.Timeout

/-!
# Sleeping

`sys_nanosleep` of `api/src/imp/task/schedule.rs`.  The call compares the time
it was asked to sleep with the difference of two readings of the clock.  What
`checked_sub` leaves is reported as the time that remains, also where nothing
remains.
-/

namespace Vegar.Task

/-! ## Subtracting durations -/

namespace Duration

/-- `Duration::checked_sub`. -/
def checkedSub (left right : Duration) : Option Duration :=
  if right.secs ≤ left.secs then
    if enough : right.nanos ≤ left.nanos then
      some
        { secs := left.secs - right.secs
          nanos := left.nanos - right.nanos
          secs_lt := Nat.lt_of_le_of_lt (Nat.sub_le _ _) left.secs_lt
          nanos_lt := Nat.lt_of_le_of_lt (Nat.sub_le _ _) left.nanos_lt }
    else if 1 ≤ left.secs - right.secs then
      some
        { secs := left.secs - right.secs - 1
          nanos := left.nanos + nanosPerSec - right.nanos
          secs_lt := by
            have bounded := left.secs_lt
            omega
          nanos_lt := by
            have bounded := right.nanos_lt
            omega }
    else none
  else none

theorem checkedSub_eq_none_iff {left right : Duration} :
    left.checkedSub right = none ↔ left.asNanos < right.asNanos := by
  have leftBounded := left.nanos_lt
  have rightBounded := right.nanos_lt
  unfold checkedSub asNanos
  simp only [nanosPerSec] at leftBounded rightBounded ⊢
  split
  · split
    · refine iff_of_false (Option.some_ne_none _) ?_
      omega
    · split
      · refine iff_of_false (Option.some_ne_none _) ?_
        omega
      · refine iff_of_true rfl ?_
        omega
  · refine iff_of_true rfl ?_
    omega

theorem asNanos_of_checkedSub {left right difference : Duration}
    (subtracted : left.checkedSub right = some difference) :
    difference.asNanos + right.asNanos = left.asNanos := by
  have leftBounded := left.nanos_lt
  have rightBounded := right.nanos_lt
  unfold checkedSub at subtracted
  simp only [asNanos, nanosPerSec] at leftBounded rightBounded ⊢
  split at subtracted
  · split at subtracted
    · obtain rfl := Option.some.inj subtracted
      dsimp only
      omega
    · split at subtracted
      · obtain rfl := Option.some.inj subtracted
        simp only [nanosPerSec]
        omega
      · cases subtracted
  · cases subtracted

end Duration

/-! ## The call -/

/-- The request passes the checks of `sys_nanosleep`. -/
def Timespec.Sleepable (req : Timespec) : Prop :=
  0 ≤ req.tvNsec.toInt ∧ req.tvNsec.toInt ≤ 999999999 ∧ 0 ≤ req.tvSec.toInt

instance (req : Timespec) : Decidable req.Sleepable := inferInstanceAs (Decidable (_ ∧ _ ∧ _))

/-- `sys_nanosleep` where `checked_sub` has left something.  A pointer `rem`
that is not null is given by the result of its access. -/
def interruptedSleep (rem : Option (Except (Fault LinuxError) Unit)) (diff : Duration) :
    Except (Fault LinuxError) Int × Option Timespec :=
  match rem with
  | none => (.error (.err .EINTR), none)
  | some (.error fault) => (.error fault, none)
  | some (.ok _) => (.error (.err .EINTR), some (.fromTimeValue diff))

/-- `sys_nanosleep` with the clock at `now` before and at `after` behind the
sleep: its result, and what it stores in `rem`. -/
def sysNanosleep (req : Except (Fault LinuxError) Timespec)
    (rem : Option (Except (Fault LinuxError) Unit)) (now after : Duration) :
    Except (Fault LinuxError) Int × Option Timespec :=
  match req with
  | .error fault => (.error fault, none)
  | .ok req =>
      if req.tvNsec.toInt < 0 ∨ 999999999 < req.tvNsec.toInt ∨ req.tvSec.toInt < 0 then
        (.error (.err .EINVAL), none)
      else
        match req.toTimeValue, after.checkedSub now with
        | some dur, some actual =>
            match dur.checkedSub actual with
            | some diff => interruptedSleep rem diff
            | none => (.ok 0, none)
        | _, _ => (.error .panicked, none)

structure ReportsEarlyWake (req : Timespec) (rem : Option (Except (Fault LinuxError) Unit))
    (elapsed : Int) (result : Except (Fault LinuxError) Int × Option Timespec) :
    Prop where
  success : result.1 = .ok 0 ↔ req.asNanos ≤ elapsed
  interrupted : elapsed < req.asNanos → result.1 = .error (.err .EINTR)
  remains :
    elapsed < req.asNanos → rem ≠ none →
      ∃ left, result.2 = some left ∧ left.asNanos = req.asNanos - elapsed ∧
        0 ≤ left.tvNsec.toInt ∧ left.tvNsec.toInt < nanosPerSec

section Sleeping

variable {req : Timespec} {now after : Duration}

theorem Timespec.representable_of_sleepable (sleepable : req.Sleepable) :
    req.Representable := by
  obtain ⟨nanosPositive, nanosSmall, secsPositive⟩ := sleepable
  refine ⟨secsPositive, nanosPositive, ?_⟩
  omega

theorem Timespec.tvNsec_fromTimeValue (duration : Duration) :
    (Timespec.fromTimeValue duration).tvNsec.toInt = duration.nanos := by
  have bounded := duration.nanos_lt
  simp only [nanosPerSec] at bounded
  rw [fromTimeValue, BitVec.toInt_eq_toNat_cond, BitVec.toNat_ofNat]
  omega

theorem Timespec.asNanos_fromTimeValue {duration : Duration} (fits : duration.secs < 2 ^ 63) :
    (Timespec.fromTimeValue duration).asNanos = duration.asNanos := by
  have isSecs : (Timespec.fromTimeValue duration).tvSec.toInt = duration.secs := by
    rw [fromTimeValue, BitVec.toInt_eq_toNat_cond, BitVec.toNat_ofNat]
    omega
  rw [asNanos, isSecs, tvNsec_fromTimeValue, Duration.asNanos]
  push_cast
  rfl

theorem sysNanosleep_of_sleepable
    (sleepable : req.Sleepable) (forward : now.asNanos ≤ after.asNanos)
    (rem : Option (Except (Fault LinuxError) Unit)) :
    ∃ dur actual : Duration, (dur.asNanos : Int) = req.asNanos ∧ dur.secs < 2 ^ 63 ∧
      (actual.asNanos : Int) = after.asNanos - now.asNanos ∧
      sysNanosleep (.ok req) rem now after =
        match dur.checkedSub actual with
        | some diff => interruptedSleep rem diff
        | none => (.ok 0, none) := by
  have representable := Timespec.representable_of_sleepable sleepable
  obtain ⟨nanosPositive, nanosSmall, secsPositive⟩ := sleepable
  obtain ⟨dur, converted⟩ :=
    Option.ne_none_iff_exists'.mp (Timespec.toTimeValue_isSome representable)
  obtain ⟨actual, subtracted⟩ :=
    Option.ne_none_iff_exists'.mp (mt Duration.checkedSub_eq_none_iff.mp (Nat.not_lt.mpr forward))
  have sameTime := (Timespec.asNanos_toTimeValue_iff converted).mpr representable
  have elapsed := Duration.asNanos_of_checkedSub subtracted
  have accepted :
      ¬ (req.tvNsec.toInt < 0 ∨ 999999999 < req.tvNsec.toInt ∨ req.tvSec.toInt < 0) := by
    omega
  refine ⟨dur, actual, sameTime, ?_, by omega, ?_⟩
  · have bounded := @BitVec.toInt_lt 64 req.tvSec
    rw [Duration.asNanos, Timespec.asNanos] at sameTime
    simp only [nanosPerSec] at sameTime
    push_cast at sameTime bounded
    omega
  · simp only [sysNanosleep, if_neg accepted, converted, subtracted]

theorem interruptedSleep_ne_ok (rem : Option (Except (Fault LinuxError) Unit)) (diff : Duration) :
    (interruptedSleep rem diff).1 ≠ .ok 0 := by
  unfold interruptedSleep
  split <;> nofun

theorem interruptedSleep_reports_iff
    {rem : Option (Except (Fault LinuxError) Unit)} {diff : Duration}
    {elapsed : Int} (fits : diff.secs < 2 ^ 63)
    (total : (diff.asNanos : Int) = req.asNanos - elapsed) :
    ReportsEarlyWake req rem elapsed (interruptedSleep rem diff) ↔
      elapsed ≠ req.asNanos ∧ (elapsed < req.asNanos → rem = none ∨ rem = some (.ok ())) := by
  have notOk := interruptedSleep_ne_ok rem diff
  have success :
      ((interruptedSleep rem diff).1 = .ok 0 ↔ req.asNanos ≤ elapsed) ↔
        elapsed ≠ req.asNanos := by
    rw [iff_false_left notOk]
    omega
  have remaining : (Timespec.fromTimeValue diff).asNanos = req.asNanos - elapsed := by
    rw [Timespec.asNanos_fromTimeValue fits, total]
  have normalised :
      0 ≤ (Timespec.fromTimeValue diff).tvNsec.toInt ∧
        (Timespec.fromTimeValue diff).tvNsec.toInt < nanosPerSec := by
    have bounded := diff.nanos_lt
    rw [Timespec.tvNsec_fromTimeValue]
    omega
  constructor
  · intro reports
    refine ⟨success.mp reports.success, ?_⟩
    intro early
    match rem, reports.remains early with
    | none, _ => exact Or.inl rfl
    | some (.ok ()), _ => exact Or.inr rfl
    | some (.error fault), remains =>
        obtain ⟨left, impossible, -⟩ := remains (Option.some_ne_none _)
        cases impossible
  · rintro ⟨inexact, stored⟩
    refine ⟨success.mpr inexact, ?_, ?_⟩
    · intro early
      rcases stored early with rfl | rfl <;> rfl
    · intro early given
      rcases stored early with rfl | rfl
      · exact (given rfl).elim
      · exact ⟨_, rfl, remaining, normalised⟩

end Sleeping

/-- For a valid request, `sys_nanosleep` tells an early wake from a full sleep
exactly if it did not sleep for exactly the time asked for, and, where it woke
early, `rem` can be stored to or is null. -/
theorem sysNanosleep_reports_iff (req : Timespec) (sleepable : req.Sleepable)
    (rem : Option (Except (Fault LinuxError) Unit)) (now after : Duration)
    (forward : now.asNanos ≤ after.asNanos) :
    ReportsEarlyWake req rem (after.asNanos - now.asNanos) (sysNanosleep (.ok req) rem now after) ↔
      (after.asNanos - now.asNanos : Int) ≠ req.asNanos ∧
        ((after.asNanos - now.asNanos : Int) < req.asNanos → rem = none ∨ rem = some (.ok ())) := by
  obtain ⟨dur, actual, sameTime, fits, elapsed, isResult⟩ :=
    sysNanosleep_of_sleepable sleepable forward rem
  rw [← elapsed, ← sameTime, isResult]
  cases subtracted : dur.checkedSub actual with
  | none =>
      have slept := Duration.checkedSub_eq_none_iff.mp subtracted
      refine iff_of_true ⟨?_, ?_, ?_⟩ ⟨by omega, by omega⟩
      · refine iff_of_true rfl ?_
        rw [← sameTime]
        omega
      · intro early
        omega
      · intro early
        omega
  | some diff =>
      have total := Duration.asNanos_of_checkedSub subtracted
      have diffFits : diff.secs < 2 ^ 63 := by
        have bounded := dur.nanos_lt
        simp only [Duration.asNanos, nanosPerSec] at total bounded
        omega
      rw [sameTime]
      refine interruptedSleep_reports_iff diffFits ?_
      omega

/-- `Duration::from_secs`. -/
def Duration.fromSecs (secs : BitVec 64) : Duration where
  secs := secs.toNat
  nanos := 0
  secs_lt := secs.isLt
  nanos_lt := by decide

/-- Half of a sleep of two seconds. -/
theorem sysNanosleep_reports_iff_half :
    (⟨2, 0⟩ : Timespec).Sleepable ∧
      ReportsEarlyWake ⟨2, 0⟩ (some (.ok ()))
        ((Duration.fromSecs 6).asNanos - (Duration.fromSecs 5).asNanos)
        (sysNanosleep (.ok ⟨2, 0⟩) (some (.ok ())) (.fromSecs 5) (.fromSecs 6)) := by
  have sleepable : (⟨2, 0⟩ : Timespec).Sleepable := by decide
  refine ⟨sleepable, ?_⟩
  exact (sysNanosleep_reports_iff ⟨2, 0⟩ sleepable (some (.ok ())) (.fromSecs 5)
      (.fromSecs 6) (by decide)).mpr ⟨by decide, fun _ => Or.inr rfl⟩

/-- A sleep of exactly two seconds is interrupted, and nothing remains. -/
theorem sysNanosleep_exact_interrupted :
    sysNanosleep (.ok ⟨2, 0⟩) (some (.ok ())) (.fromSecs 5) (.fromSecs 7) =
        (.error (.err .EINTR), some ⟨0, 0⟩) ∧
      ¬ ReportsEarlyWake ⟨2, 0⟩ (some (.ok ()))
        ((Duration.fromSecs 7).asNanos - (Duration.fromSecs 5).asNanos)
        (sysNanosleep (.ok ⟨2, 0⟩) (some (.ok ())) (.fromSecs 5) (.fromSecs 7)) := by
  have interrupted :
      sysNanosleep (.ok ⟨2, 0⟩) (some (.ok ())) (.fromSecs 5) (.fromSecs 7) =
        (.error (.err .EINTR), some ⟨0, 0⟩) := by
    decide
  refine ⟨interrupted, ?_⟩
  intro reports
  have succeeded := reports.success.mpr (by decide)
  rw [interrupted] at succeeded
  cases succeeded

end Vegar.Task

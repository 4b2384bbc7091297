import Mathlib.Algebra.GroupWithZero.Nat
import Mathlib.Algebra.Ring.Int.Defs
import Vegar.Task.SignalMask

/-!
# Timeouts from user space

`api/src/time.rs` turns the structures of the user into a `TimeValue` by
casts alone, and `FUTEX_WAIT` and `sys_rt_sigtimedwait` wait for the result.
-/

namespace Vegar.Task

def nanosPerSec : Nat := 1000000000

/-- `core::time::Duration`. -/
structure Duration where
  secs : Nat
  nanos : Nat
  secs_lt : secs < 2 ^ 64
  nanos_lt : nanos < nanosPerSec
  deriving DecidableEq

namespace Duration

/-- `Duration::new`, or `none` where it panics. -/
def new (secs : BitVec 64) (nanos : BitVec 32) : Option Duration :=
  if fits : secs.toNat + nanos.toNat / nanosPerSec < 2 ^ 64 then
    some
      { secs := secs.toNat + nanos.toNat / nanosPerSec
        nanos := nanos.toNat % nanosPerSec
        secs_lt := fits
        nanos_lt := Nat.mod_lt _ (by decide) }
  else none

def asNanos (duration : Duration) : Nat := duration.secs * nanosPerSec + duration.nanos

theorem new_eq_none_iff {secs : BitVec 64} {nanos : BitVec 32} :
    new secs nanos = none ↔ 2 ^ 64 ≤ secs.toNat + nanos.toNat / nanosPerSec := by
  unfold new
  split
  · next fits =>
      constructor
      · exact nofun
      · intro overflows
        omega
  · next overflows =>
      constructor
      · intro
        omega
      · exact fun _ => rfl

theorem asNanos_of_new {secs : BitVec 64} {nanos : BitVec 32} {duration : Duration}
    (made : new secs nanos = some duration) :
    duration.asNanos = secs.toNat * nanosPerSec + nanos.toNat := by
  unfold new at made
  split at made
  · obtain rfl := Option.some.inj made
    have whole := Nat.div_add_mod nanos.toNat nanosPerSec
    simp only [asNanos, nanosPerSec] at whole ⊢
    omega
  · cases made

end Duration

/-! ## The structures of the user -/

/-- `timespec`, `__kernel_timespec` and `__kernel_old_timespec`. -/
structure Timespec where
  tvSec : BitVec 64
  tvNsec : BitVec 64
  deriving DecidableEq

/-- `timeval`, `__kernel_old_timeval` and `__kernel_sock_timeval`. -/
structure Timeval where
  tvSec : BitVec 64
  tvUsec : BitVec 64
  deriving DecidableEq

namespace Timespec

/-- `to_time_value`, or `none` where it panics. -/
def toTimeValue (spec : Timespec) : Option Duration :=
  Duration.new spec.tvSec (spec.tvNsec.setWidth 32)

/-- `from_time_value`. -/
def fromTimeValue (duration : Duration) : Timespec where
  tvSec := .ofNat 64 duration.secs
  tvNsec := .ofNat 64 duration.nanos

def asNanos (spec : Timespec) : Int := spec.tvSec.toInt * nanosPerSec + spec.tvNsec.toInt

def Representable (spec : Timespec) : Prop :=
  0 ≤ spec.tvSec.toInt ∧ 0 ≤ spec.tvNsec.toInt ∧ spec.tvNsec.toInt < 2 ^ 32

instance (spec : Timespec) : Decidable spec.Representable := inferInstanceAs (Decidable (_ ∧ _ ∧ _))

theorem toTimeValue_isSome {spec : Timespec} (representable : spec.Representable) :
    spec.toTimeValue ≠ none := by
  obtain ⟨secsPositive, -, -⟩ := representable
  rw [BitVec.toInt_eq_toNat_cond] at secsPositive
  have bounded := spec.tvSec.isLt
  have carryBounded := (spec.tvNsec.setWidth 32).isLt
  intro panics
  have overflows := Duration.new_eq_none_iff.mp panics
  simp only [nanosPerSec] at overflows
  split at secsPositive <;> omega

theorem asNanos_toTimeValue_iff {spec : Timespec} {duration : Duration}
    (converted : spec.toTimeValue = some duration) :
    (duration.asNanos : Int) = spec.asNanos ↔ spec.Representable := by
  have total := Duration.asNanos_of_new converted
  have secsBounded := spec.tvSec.isLt
  have nanosBounded := spec.tvNsec.isLt
  rw [BitVec.toNat_setWidth] at total
  rw [total, asNanos, Representable, BitVec.toInt_eq_toNat_cond, BitVec.toInt_eq_toNat_cond]
  simp only [nanosPerSec]
  split <;> split <;> omega

end Timespec

namespace Timeval

/-- `to_time_value`, or `none` where it panics. -/
def toTimeValue (val : Timeval) : Option Duration :=
  let usec := (val.tvUsec.setWidth 32).toNat
  if usec * 1000 < 2 ^ 32 then
    Duration.new val.tvSec (.ofNat 32 (usec * 1000))
  else none

def Convertible (val : Timeval) : Prop := val.tvUsec.toNat % 2 ^ 32 * 1000 < 2 ^ 32 ∧
    val.tvSec.toNat + val.tvUsec.toNat % 2 ^ 32 * 1000 / nanosPerSec < 2 ^ 64

theorem toTimeValue_ne_none_iff (val : Timeval) :
    val.toTimeValue ≠ none ↔ val.Convertible := by
  have sameUsec : (val.tvUsec.setWidth 32).toNat = val.tvUsec.toNat % 2 ^ 32 :=
    BitVec.toNat_setWidth _ _
  simp only [toTimeValue, Convertible, sameUsec]
  by_cases product : val.tvUsec.toNat % 2 ^ 32 * 1000 < 2 ^ 32
  · have sameNanos :
        (BitVec.ofNat 32 (val.tvUsec.toNat % 2 ^ 32 * 1000)).toNat =
          val.tvUsec.toNat % 2 ^ 32 * 1000 := by
      rw [BitVec.toNat_ofNat]
      exact Nat.mod_eq_of_lt product
    rw [if_pos product, Ne, Duration.new_eq_none_iff, sameNanos, Nat.not_le]
    exact ⟨fun carried => ⟨product, carried⟩, fun both => both.2⟩
  · rw [if_neg product]
    constructor
    · exact fun succeeds => (succeeds rfl).elim
    · exact fun both => (product both.1).elim

end Timeval

/-! ## The calls that wait -/

structure TimedCall (Info : Type) where
  waited : Option (Option Duration)
  stored : Option Info
  outcome : Except (Fault LinuxError) Nat

namespace TimedCall

variable {Info : Type}

def failed (fault : Fault LinuxError) : TimedCall Info := ⟨none, none, .error fault⟩

/-- `nullable!(timeout.get_as_ref())?` with `to_time_value` and what comes
after. -/
def withTimeout (timeout : LinuxResult (Option Timespec))
    (wait : Option Duration → TimedCall Info) : TimedCall Info :=
  match timeout with
  | .error error => failed (.err error)
  | .ok none => wait none
  | .ok (some spec) =>
      match spec.toTimeValue with
      | none => failed .panicked
      | some duration => wait (some duration)

structure Honours (spec : Timespec) (call : TimedCall Info) : Prop where
  noPanic : call.outcome ≠ .error .panicked
  exact :
    ∀ limit, call.waited = some limit →
      ∃ duration, limit = some duration ∧ (duration.asNanos : Int) = spec.asNanos
  rejects : call.waited = none → ∃ error, call.outcome = .error (.err error)

theorem honours_failed (spec : Timespec) (error : LinuxError) :
    Honours spec (failed (.err error) : TimedCall Info) where
  noPanic := nofun
  exact := nofun
  rejects _ := ⟨error, rfl⟩

theorem honours_withTimeout_iff (spec : Timespec) {wait : Option Duration → TimedCall Info}
    (waits : ∀ limit, (wait limit).waited = some limit)
    (returns : ∀ limit, (wait limit).outcome ≠ .error .panicked) :
    Honours spec (withTimeout (.ok (some spec)) wait) ↔
      spec.Representable := by
  cases converted : spec.toTimeValue with
  | none =>
      simp only [withTimeout, converted]
      constructor
      · intro honours
        exact (honours.noPanic rfl).elim
      · intro representable
        exact (Timespec.toTimeValue_isSome representable converted).elim
  | some duration =>
      have isExact := Timespec.asNanos_toTimeValue_iff converted
      simp only [withTimeout, converted]
      constructor
      · intro honours
        obtain ⟨waitedFor, same, total⟩ := honours.exact (some duration) (waits _)
        rw [← Option.some.inj same] at total
        exact isExact.mp total
      · intro representable
        refine ⟨returns _, ?_, ?_⟩
        · intro limit waited
          rw [waits] at waited
          exact ⟨duration, (Option.some.inj waited).symm, isExact.mpr representable⟩
        · intro never
          rw [waits] at never
          cases never

end TimedCall

open TimedCall (failed withTimeout Honours)

/-- `FUTEX_WAIT` returns zero after the wait, however it ended. -/
def awaitWake (limit : Option Duration) : TimedCall Empty := ⟨some limit, none, .ok 0⟩

/-- `sys_futex` with `FUTEX_WAIT`; `word` is what the futex holds. -/
def sysFutexWait (word : LinuxResult (BitVec 32)) (value : BitVec 32)
    (timeout : LinuxResult (Option Timespec)) : TimedCall Empty :=
  match word with
  | .error error => failed (.err error)
  | .ok found =>
      if found ≠ value then failed (.err .EAGAIN)
      else withTimeout timeout awaitWake

/-- The rest of `sys_rt_sigtimedwait` once the limit is known. -/
def awaitSignal {Info : Type} (info : LinuxResult (Option Unit))
    (waitTimeout : SignalSet → Option Duration → Option Info)
    (awaited : SignalSet) (limit : Option Duration) : TimedCall Info :=
  match waitTimeout awaited limit with
  | none => ⟨some limit, none, .error (.err .EAGAIN)⟩
  | some sig =>
      match info with
      | .error error => ⟨some limit, none, .error (.err error)⟩
      | .ok none => ⟨some limit, none, .ok 0⟩
      | .ok (some ()) => ⟨some limit, some sig, .ok 0⟩

/-- `sys_rt_sigtimedwait`; `waitTimeout` is what the signal manager of the
thread finds for a set before the limit, and `info` the user's buffer. -/
def sysRtSigtimedwait {Info : Type} (set : LinuxResult SignalSet) (info : LinuxResult (Option Unit))
    (timeout : LinuxResult (Option Timespec)) (sigsetsize : Nat)
    (waitTimeout : SignalSet → Option Duration → Option Info) :
    TimedCall Info :=
  if sigsetsize ≠ sigsetBytes then failed (.err .EINVAL)
  else
    match set with
    | .error error => failed (.err error)
    | .ok awaited =>
        withTimeout timeout (awaitSignal info waitTimeout awaited)

theorem awaitSignal_waited {Info : Type} (info : LinuxResult (Option Unit))
    (waitTimeout : SignalSet → Option Duration → Option Info)
    (awaited : SignalSet) (limit : Option Duration) :
    (awaitSignal info waitTimeout awaited limit).waited = some limit := by
  unfold awaitSignal
  split
  · rfl
  · split <;> rfl

theorem awaitSignal_returns {Info : Type} (info : LinuxResult (Option Unit))
    (waitTimeout : SignalSet → Option Duration → Option Info)
    (awaited : SignalSet) (limit : Option Duration) :
    (awaitSignal info waitTimeout awaited limit).outcome ≠ .error .panicked := by
  unfold awaitSignal
  split
  · exact nofun
  · split <;> exact nofun

theorem sysFutexWait_honours_iff
    (word : LinuxResult (BitVec 32)) (value : BitVec 32) (spec : Timespec) :
    Honours spec (sysFutexWait word value (.ok (some spec))) ↔
      (word = .ok value → spec.Representable) := by
  cases word with
  | error error =>
      constructor
      · intro _ holds
        cases holds
      · exact fun _ => TimedCall.honours_failed spec error
  | ok found =>
      by_cases same : found = value
      · have reached :
            sysFutexWait (.ok found) value (.ok (some spec)) =
              withTimeout (.ok (some spec)) awaitWake := by
          simp only [sysFutexWait, same, ne_eq, not_true_eq_false, if_false]
        have waits (limit : Option Duration) : (awaitWake limit).waited = some limit := rfl
        have returns (limit : Option Duration) : (awaitWake limit).outcome ≠ .error .panicked :=
          nofun
        rw [reached, TimedCall.honours_withTimeout_iff spec waits returns, same]
        exact ⟨fun representable _ => representable, fun asked => asked rfl⟩
      · have stopped :
            sysFutexWait (.ok found) value (.ok (some spec)) = failed (.err .EAGAIN) := by
          simp only [sysFutexWait, ne_eq, same, not_false_eq_true, if_true]
        rw [stopped]
        constructor
        · intro _ holds
          exact (same (Except.ok.inj holds)).elim
        · exact fun _ => TimedCall.honours_failed spec .EAGAIN

theorem sysRtSigtimedwait_honours_iff {Info : Type}
    (set : LinuxResult SignalSet) (info : LinuxResult (Option Unit))
    (spec : Timespec) (sigsetsize : Nat)
    (waitTimeout : SignalSet → Option Duration → Option Info) :
    Honours spec (sysRtSigtimedwait set info (.ok (some spec)) sigsetsize waitTimeout) ↔
      (sigsetsize = sigsetBytes → (∃ awaited, set = .ok awaited) → spec.Representable) := by
  by_cases sized : sigsetsize = sigsetBytes
  · cases set with
    | error error =>
        have stopped :
            sysRtSigtimedwait (.error error) info (.ok (some spec))
              sigsetsize waitTimeout = failed (.err error) := by
          simp only [sysRtSigtimedwait, sized, ne_eq, not_true_eq_false, if_false]
        rw [stopped]
        constructor
        · rintro - - ⟨awaited, impossible⟩
          cases impossible
        · exact fun _ => TimedCall.honours_failed spec error
    | ok awaited =>
        have reached :
            sysRtSigtimedwait (.ok awaited) info (.ok (some spec)) sigsetsize waitTimeout =
              withTimeout (.ok (some spec)) (awaitSignal info waitTimeout awaited) := by
          simp only [sysRtSigtimedwait, sized, ne_eq, not_true_eq_false, if_false]
        rw [reached,
          TimedCall.honours_withTimeout_iff spec (awaitSignal_waited info waitTimeout awaited)
            (awaitSignal_returns info waitTimeout awaited)]
        constructor
        · exact fun representable _ _ => representable
        · exact fun asked => asked sized ⟨awaited, rfl⟩
  · have stopped :
        sysRtSigtimedwait set info (.ok (some spec)) sigsetsize
          waitTimeout = failed (.err .EINVAL) := by
      simp only [sysRtSigtimedwait, ne_eq, sized, not_false_eq_true, if_true]
    rw [stopped]
    constructor
    · exact fun _ isSized => (sized isSized).elim
    · exact fun _ => TimedCall.honours_failed spec .EINVAL

/-- A timeout is honoured by the two calls exactly if the seconds are not
negative and the nanoseconds fit in 32 bits, unless the call fails before it
looks at them; a `timeval` converts without overflow exactly if neither the
product nor the carry overflows. -/
theorem timeouts_honoured_iff (Info : Type) :
    (∀ word value spec,
      Honours spec (sysFutexWait word value (.ok (some spec))) ↔
        (word = .ok value → spec.Representable)) ∧
    (∀ set info spec sigsetsize (waitTimeout : SignalSet → Option Duration → Option Info),
      Honours spec (sysRtSigtimedwait set info (.ok (some spec)) sigsetsize waitTimeout) ↔
        (sigsetsize = sigsetBytes → (∃ awaited, set = .ok awaited) → spec.Representable)) ∧
    ∀ val : Timeval, val.toTimeValue ≠ none ↔ val.Convertible :=
  ⟨sysFutexWait_honours_iff, sysRtSigtimedwait_honours_iff, Timeval.toTimeValue_ne_none_iff⟩

/-- A wait for minus one second and a full second of nanoseconds panics, and so
does the product for a `timeval`. -/
theorem sysFutexWait_panics :
    (sysFutexWait (.ok 0) 0 (.ok (some ⟨BitVec.ofInt 64 (-1), 1000000000⟩))).outcome =
      .error .panicked ∧
    (⟨0, 4294968⟩ : Timeval).toTimeValue = none := by
  decide

end Vegar.Task

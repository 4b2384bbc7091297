import Vegar.Lib.Usize
import Mathlib.Algebra.Group.Prod

/-!
# CPU times

`TimeStat` of `core/src/time.rs`.  A switch into the kernel charges the time
since the last switch into the kernel as user time, although a switch into
user mode in between has already charged a part of it as system time.
-/

namespace Vegar.Task

open Vegar.Lib

/-- `TimerType`. -/
inductive TimerType where
  | NONE
  | REAL
  | VIRTUAL
  | PROF
  deriving DecidableEq, Repr

/-- `TimeStat`. -/
structure TimeStat where
  utimeNs : Nat
  stimeNs : Nat
  userTimestamp : Nat
  kernelTimestamp : Nat
  timerType : TimerType
  timerIntervalNs : Nat
  timerRemainedNs : Nat
  deriving DecidableEq, Repr

namespace TimeStat

/-- `TimeStat::new`. -/
def new : TimeStat := ⟨0, 0, 0, 0, .NONE, 0, 0⟩

/-- `TimeStat::output`. -/
def output (stat : TimeStat) : Nat × Nat := (stat.utimeNs, stat.stimeNs)

/-- `TimeStat::reset`. -/
def reset (stat : TimeStat) (currentTimestamp : Nat) : TimeStat :=
  { stat with
    utimeNs := 0
    stimeNs := 0
    userTimestamp := 0
    kernelTimestamp := currentTimestamp }

/-- `TimeStat::update_timer`. -/
def updateTimer (stat : TimeStat) (delta : Nat) : TimeStat :=
  if stat.timerRemainedNs = 0 then stat
  else if stat.timerRemainedNs > delta then
    { stat with timerRemainedNs := stat.timerRemainedNs - delta }
  else stat

/-- `TimeStat::switch_into_kernel_mode`. -/
def switchIntoKernelMode (stat : TimeStat) (currentTimestamp : Nat) :
    Option TimeStat := do
  let delta ← usizeSub currentTimestamp stat.kernelTimestamp
  let utimeNs ← usizeAdd stat.utimeNs delta
  let stat := { stat with utimeNs := utimeNs, kernelTimestamp := currentTimestamp }
  return if stat.timerType ≠ .NONE then stat.updateTimer delta else stat

/-- `TimeStat::switch_into_user_mode`. -/
def switchIntoUserMode (stat : TimeStat) (currentTimestamp : Nat) :
    Option TimeStat := do
  let delta ← usizeSub currentTimestamp stat.kernelTimestamp
  let stimeNs ← usizeAdd stat.stimeNs delta
  let stat := { stat with stimeNs := stimeNs, userTimestamp := currentTimestamp }
  return if stat.timerType = .REAL ∨ stat.timerType = .PROF
    then stat.updateTimer delta else stat

end TimeStat

inductive ModeSwitch where
  | intoUser (now : Nat)
  | intoKernel (now : Nat)
  deriving DecidableEq, Repr

namespace ModeSwitch

def now : ModeSwitch → Nat
  | .intoUser now => now
  | .intoKernel now => now

def isUser : ModeSwitch → Bool
  | .intoUser _ => true
  | .intoKernel _ => false

end ModeSwitch

namespace TimeStat

/-- One switch; `none` is an arithmetic overflow. -/
def switch (stat : TimeStat) : ModeSwitch → Option TimeStat
  | .intoUser now => stat.switchIntoUserMode now
  | .intoKernel now => stat.switchIntoKernelMode now

def run (stat : TimeStat) : List ModeSwitch → Option TimeStat
  | [] => some stat
  | event :: rest => (stat.switch event).bind fun next => next.run rest

end TimeStat

/-! ## The intervals of a run -/

def AlternatesFrom : (inUser : Bool) → List ModeSwitch → Prop
  | _, [] => True
  | inUser, event :: rest =>
      event.isUser = !inUser ∧ AlternatesFrom event.isUser rest

/-- The timestamps do not decrease, and fit a `usize`. -/
def OrderedFrom : (since : Nat) → List ModeSwitch → Prop
  | _, [] => True
  | since, event :: rest =>
      since ≤ event.now ∧ event.now ≤ usizeMax ∧ OrderedFrom event.now rest

def charge (inUser : Bool) (since : Nat) (event : ModeSwitch) : Nat × Nat :=
  if inUser && !event.isUser then (event.now - since, 0)
  else (0, event.now - since)

def charged : (inUser : Bool) → (since : Nat) → List ModeSwitch → Nat × Nat
  | _, _, [] => (0, 0)
  | inUser, since, event :: rest =>
      charge inUser since event + charged event.isUser event.now rest

def lastTimestamp : (since : Nat) → List ModeSwitch → Nat
  | since, [] => since
  | _, event :: rest => lastTimestamp event.now rest

/-- After each event of the run, `output` is the user and system time of the
intervals so far, and their sum is the time since the reset. -/
def AccountsExactly (stat : TimeStat) (start : Nat) (events : List ModeSwitch) : Prop :=
  ∀ seen rest, events = seen ++ rest →
    ∃ after, (stat.reset start).run seen = some after ∧ after.output = charged false start seen ∧
      after.output.1 + after.output.2 = lastTimestamp start seen - start

def KernelTimeEmpty : (inUser : Bool) → (kernel since : Nat) → List ModeSwitch → Prop
  | _, _, _, [] => True
  | _, kernel, _, .intoUser now :: rest =>
      KernelTimeEmpty true kernel now rest
  | inUser, kernel, since, .intoKernel now :: rest =>
      (if inUser then since else now) = kernel ∧ KernelTimeEmpty false now now rest

variable {since : Nat} {events : List ModeSwitch}

theorem since_le_lastTimestamp (ordered : OrderedFrom since events) :
    since ≤ lastTimestamp since events := by
  induction events generalizing since with
  | nil =>
      exact Nat.le_refl since
  | cons event rest ih =>
      exact Nat.le_trans ordered.1 (ih ordered.2.2)

variable {inUser : Bool}

theorem charged_sum (ordered : OrderedFrom since events) :
    (charged inUser since events).1 + (charged inUser since events).2 =
      lastTimestamp since events - since := by
  induction events generalizing inUser since with
  | nil =>
      simp [charged, lastTimestamp]
  | cons event rest ih =>
      have later := since_le_lastTimestamp ordered.2.2
      have whole := @ih event.now event.isUser ordered.2.2
      have first := ordered.1
      have interval :
          (charge inUser since event).1 + (charge inUser since event).2 =
            event.now - since := by
        unfold charge
        split <;> simp
      simp only [charged, lastTimestamp, Prod.fst_add, Prod.snd_add]
      omega

theorem OrderedFrom.of_append {seen rest : List ModeSwitch}
    (ordered : OrderedFrom since (seen ++ rest)) :
    OrderedFrom since seen := by
  induction seen generalizing since with
  | nil =>
      trivial
  | cons event seen ih =>
      exact ⟨ordered.1, ordered.2.1, ih ordered.2.2⟩

/-! ## Exactness, event by event -/

namespace TimeStat

theorem updateTimer_keeps (stat : TimeStat) (delta : Nat) (counts : Prop) [Decidable counts] :
    (if counts then stat.updateTimer delta else stat).output = stat.output ∧
      (if counts then stat.updateTimer delta else stat).kernelTimestamp =
        stat.kernelTimestamp := by
  unfold updateTimer
  repeat' split
  all_goals exact ⟨rfl, rfl⟩

/-- The last event was at `since`, and nothing is charged beyond it. -/
structure Booked (stat : TimeStat) (inUser : Bool) (since : Nat) : Prop where
  entered : stat.kernelTimestamp ≤ since
  inKernel : inUser = false → since = stat.kernelTimestamp
  userTime : stat.output.1 ≤ stat.kernelTimestamp
  systemTime : stat.output.2 ≤ since

theorem switchIntoUserMode_eq {stat : TimeStat} {now : Nat} (entered : stat.kernelTimestamp ≤ now)
    (fits : stat.stimeNs + (now - stat.kernelTimestamp) ≤ usizeMax) :
    ∃ next, stat.switchIntoUserMode now = some next ∧
      next.output = stat.output + (0, now - stat.kernelTimestamp) ∧
      next.kernelTimestamp = stat.kernelTimestamp := by
  rw [switchIntoUserMode, usizeSub_of_le entered, Option.bind_eq_bind,
    Option.bind_some, usizeAdd_of_le fits]
  exact ⟨_, rfl, updateTimer_keeps _ _ _⟩

theorem switchIntoKernelMode_eq {stat : TimeStat} {now : Nat} (entered : stat.kernelTimestamp ≤ now)
    (fits : stat.utimeNs + (now - stat.kernelTimestamp) ≤ usizeMax) :
    ∃ next, stat.switchIntoKernelMode now = some next ∧
      next.output = stat.output + (now - stat.kernelTimestamp, 0) ∧
      next.kernelTimestamp = now := by
  rw [switchIntoKernelMode, usizeSub_of_le entered, Option.bind_eq_bind,
    Option.bind_some, usizeAdd_of_le fits]
  exact ⟨_, rfl, updateTimer_keeps _ _ _⟩

variable {stat : TimeStat} {now : Nat}

theorem Booked.intoUser (booked : stat.Booked false since) (later : since ≤ now)
    (fits : now ≤ usizeMax) :
    ∃ next, stat.switchIntoUserMode now = some next ∧
      next.output = stat.output + (0, now - since) ∧
      next.kernelTimestamp = stat.kernelTimestamp ∧
      next.Booked true now := by
  obtain ⟨entered, inKernel, userTime, systemTime⟩ := booked
  have isSince := inKernel rfl
  simp only [output] at userTime systemTime
  obtain ⟨next, switched, charges, kept⟩ := @switchIntoUserMode_eq stat now (by omega) (by omega)
  rw [isSince]
  refine ⟨next, switched, charges, kept, ?_⟩
  constructor
  · omega
  · nofun
  · rw [charges, kept]
    exact userTime
  · rw [charges]
    simp only [output, Prod.snd_add]
    omega

theorem Booked.intoKernel (booked : stat.Booked inUser since) (later : since ≤ now)
    (fits : now ≤ usizeMax) :
    ∃ next, stat.switchIntoKernelMode now = some next ∧
      next.output = stat.output + (now - stat.kernelTimestamp, 0) ∧
      next.kernelTimestamp = now ∧
      next.Booked false now := by
  obtain ⟨entered, -, userTime, systemTime⟩ := booked
  simp only [output] at userTime systemTime
  obtain ⟨next, switched, charges, moved⟩ := @switchIntoKernelMode_eq stat now (by omega) (by omega)
  refine ⟨next, switched, charges, moved, ?_⟩
  constructor
  · omega
  · exact fun _ => moved.symm
  · rw [charges, moved]
    simp only [output, Prod.fst_add]
    omega
  · rw [charges]
    simp only [output, Prod.snd_add]
    omega

def AccountsFrom (stat : TimeStat) (inUser : Bool) (since : Nat)
    (events : List ModeSwitch) : Prop :=
  ∀ seen rest, events = seen ++ rest →
    ∃ after, stat.run seen = some after ∧ after.output = stat.output + charged inUser since seen

theorem accountsFrom_nil (stat : TimeStat) (inUser : Bool) (since : Nat) :
    stat.AccountsFrom inUser since [] := by
  intro seen rest split
  obtain ⟨rfl, -⟩ := List.append_eq_nil_iff.mp split.symm
  exact ⟨stat, rfl, rfl⟩

theorem accountsFrom_cons {next : TimeStat} {event : ModeSwitch}
    (switched : stat.switch event = some next) :
    stat.AccountsFrom inUser since (event :: events) ↔
      next.output = stat.output + charge inUser since event ∧
        next.AccountsFrom event.isUser event.now events := by
  have runs : ∀ seen, stat.run (event :: seen) = next.run seen := by
    intro seen
    rw [run, switched, Option.bind_some]
  constructor
  · intro accounts
    have first : next.output = stat.output + charge inUser since event := by
      obtain ⟨after, ran, grown⟩ := accounts [event] events rfl
      rw [runs, run, Option.some.injEq] at ran
      rw [ran, grown]
      rfl
    refine ⟨first, ?_⟩
    intro seen rest split
    obtain ⟨after, ran, grown⟩ := accounts (event :: seen) rest (by rw [split, List.cons_append])
    rw [runs] at ran
    refine ⟨after, ran, ?_⟩
    rw [grown, first, charged, add_assoc]
  · rintro ⟨first, later⟩ seen rest split
    cases seen with
    | nil =>
        exact ⟨stat, rfl, rfl⟩
    | cons head seen =>
        obtain ⟨rfl, tail⟩ := List.cons.inj split
        obtain ⟨after, ran, grown⟩ := later seen rest tail
        refine ⟨after, (runs seen).trans ran, ?_⟩
        rw [grown, first, charged, add_assoc]

theorem charge_intoKernel_iff (booked : stat.Booked inUser since) (later : since ≤ now) :
    stat.output + (now - stat.kernelTimestamp, 0) =
        stat.output + charge inUser since (.intoKernel now) ↔
      (if inUser then since else now) = stat.kernelTimestamp := by
  obtain ⟨entered, inKernel, -, -⟩ := booked
  rw [add_right_inj, charge]
  cases inUser with
  | true =>
      simp only [ModeSwitch.isUser, ModeSwitch.now, Bool.not_false,
        Bool.and_self, if_true, Prod.mk.injEq, and_true]
      omega
  | false =>
      have isSince := inKernel rfl
      simp only [ModeSwitch.now, Bool.false_and, Bool.false_eq_true, if_false, Prod.mk.injEq]
      omega

theorem accountsFrom_intoKernel_iff (booked : stat.Booked inUser since) (later : since ≤ now)
    (fits : now ≤ usizeMax)
    (rest : ∀ next : TimeStat, next.Booked false now →
      (next.AccountsFrom false now events ↔
        KernelTimeEmpty false next.kernelTimestamp now events)) :
    stat.AccountsFrom inUser since (.intoKernel now :: events) ↔
      KernelTimeEmpty inUser stat.kernelTimestamp since (.intoKernel now :: events) := by
  obtain ⟨next, switched, charges, moved, bookedNext⟩ := booked.intoKernel later fits
  have stepped : stat.switch (.intoKernel now) = some next := switched
  have restNext := rest next bookedNext
  rw [moved] at restNext
  rw [accountsFrom_cons stepped, KernelTimeEmpty, charges, charge_intoKernel_iff booked later]
  exact and_congr_right fun _ => restNext

theorem accountsFrom_iff (booked : stat.Booked inUser since) (ordered : OrderedFrom since events)
    (alternates : AlternatesFrom inUser events) :
    stat.AccountsFrom inUser since events ↔
      KernelTimeEmpty inUser stat.kernelTimestamp since events := by
  induction events generalizing stat inUser since with
  | nil =>
      exact iff_of_true (accountsFrom_nil stat inUser since) trivial
  | cons event events ih =>
      obtain ⟨later, fits, orderedRest⟩ := ordered
      obtain ⟨turns, alternatesRest⟩ := alternates
      cases event with
      | intoUser now =>
          cases inUser with
          | true => cases turns
          | false =>
              obtain ⟨next, switched, charges, kept, bookedNext⟩ := booked.intoUser later fits
              have stepped : stat.switch (.intoUser now) = some next := switched
              have rest := ih bookedNext orderedRest alternatesRest
              rw [accountsFrom_cons stepped, KernelTimeEmpty, ← kept]
              exact (and_iff_right charges).trans rest
      | intoKernel now =>
          exact accountsFrom_intoKernel_iff booked later fits fun next bookedNext =>
                ih bookedNext orderedRest alternatesRest

end TimeStat

/-- A run after a reset, which may begin with either switch, is accounted for
exactly when no kernel time lies before a later entry into the kernel. -/
theorem timeStat_exact_iff (stat : TimeStat) (start : Nat) (events : List ModeSwitch)
    (alternates : ∃ inUser, AlternatesFrom inUser events)
    (ordered : OrderedFrom start events) :
    AccountsExactly stat start events ↔
      KernelTimeEmpty false start start events := by
  have booked : (stat.reset start).Booked false start :=
    ⟨Nat.le_refl _, fun _ => rfl, Nat.zero_le _, Nat.zero_le _⟩
  have sums :
      AccountsExactly stat start events ↔ (stat.reset start).AccountsFrom false start events := by
    have fromZero :
        ∀ seen, (stat.reset start).output + charged false start seen =
          charged false start seen :=
      fun seen => zero_add _
    constructor
    · intro accounts seen rest split
      obtain ⟨after, ran, output, -⟩ := accounts seen rest split
      exact ⟨after, ran, output.trans (fromZero seen).symm⟩
    · intro accounts seen rest split
      obtain ⟨after, ran, output⟩ := accounts seen rest split
      rw [fromZero] at output
      refine ⟨after, ran, output, ?_⟩
      rw [output]
      rw [split] at ordered
      exact charged_sum ordered.of_append
  rw [sums]
  obtain ⟨inUser, alternates⟩ := alternates
  cases events with
  | nil =>
      exact TimeStat.accountsFrom_iff booked ordered trivial
  | cons event events =>
      cases event with
      | intoUser now =>
          exact TimeStat.accountsFrom_iff booked ordered ⟨rfl, alternates.2⟩
      | intoKernel now =>
          exact
            TimeStat.accountsFrom_intoKernel_iff booked ordered.1 ordered.2.1 fun next bookedNext =>
                TimeStat.accountsFrom_iff bookedNext ordered.2.2 alternates.2

def oneSyscall : List ModeSwitch := [.intoUser 1, .intoKernel 1]

theorem timeStat_exact_iff_oneSyscall :
    (AlternatesFrom false oneSyscall ∧ OrderedFrom 0 oneSyscall) ∧
      (AccountsExactly .new 0 oneSyscall ↔ KernelTimeEmpty false 0 0 oneSyscall) := by
  have alternates : AlternatesFrom false oneSyscall := ⟨rfl, rfl, trivial⟩
  have ordered : OrderedFrom 0 oneSyscall := by
    refine ⟨by decide, by decide, by decide, by decide, trivial⟩
  exact ⟨⟨alternates, ordered⟩, timeStat_exact_iff .new 0 oneSyscall ⟨false, alternates⟩ ordered⟩

/-- The unit spent in the kernel is counted as system time and again as user
time. -/
theorem oneSyscall_counted_twice :
    ((TimeStat.new.reset 0).run oneSyscall).map TimeStat.output = some (1, 1) ∧
      charged false 0 oneSyscall = (0, 1) ∧
      ¬ AccountsExactly .new 0 oneSyscall := by
  refine ⟨by decide, by decide, ?_⟩
  intro accounts
  obtain ⟨after, ran, output, -⟩ := accounts oneSyscall [] rfl
  have counted : ((TimeStat.new.reset 0).run oneSyscall).map TimeStat.output = some (1, 1) := by
    decide
  rw [ran, Option.map_some, output] at counted
  exact absurd counted (by decide)

end Vegar.Task

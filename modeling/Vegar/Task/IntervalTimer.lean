import Vegar.Task.TimeStat

/-!
# The interval timer

`TimeStat::set_timer` and `TimeStat::update_timer` of `core/src/time.rs`.  The
switches of a task call `update_timer` with the time since the last one.  It
subtracts a delta only while the remaining time is larger; the delta that would
bring the timer to zero, or below, is not charged at all.
-/

namespace Vegar.Task

/-- `TimerType::from(usize)`: `try_from(num as i32)`, or `NONE`. -/
def TimerType.fromUsize (num : Nat) : TimerType :=
  match (BitVec.ofNat 32 num).toInt with
  | 0 => .REAL
  | 1 => .VIRTUAL
  | 2 => .PROF
  | _ => .NONE

namespace TimeStat

/-- `TimeStat::set_timer`. -/
def setTimer (stat : TimeStat) (timerIntervalNs timerRemainedNs timerType : Nat) :
    Bool × TimeStat :=
  let timerType := TimerType.fromUsize timerType
  (timerType ≠ .NONE,
    { stat with
      timerType := timerType
      timerIntervalNs := timerIntervalNs
      timerRemainedNs := timerRemainedNs })

/-- A sequence of calls of `update_timer`. -/
def updateTimers (stat : TimeStat) (deltas : List Nat) : TimeStat := deltas.foldl updateTimer stat

/-- After the deltas the timer has what they leave of the time it was set to,
or nothing; how the same time is cut into deltas makes no difference; and it
stands at zero once it has been charged all of its time. -/
structure RunsDown (stat : TimeStat) (deltas : List Nat) : Prop where
  remained : (stat.updateTimers deltas).timerRemainedNs = stat.timerRemainedNs - deltas.sum
  anyCut :
    ∀ others : List Nat, others.sum = deltas.sum →
      (stat.updateTimers others).timerRemainedNs = (stat.updateTimers deltas).timerRemainedNs
  expires : stat.timerRemainedNs ≤ deltas.sum → (stat.updateTimers deltas).timerRemainedNs = 0

/-! ## What a sequence of deltas leaves -/

theorem updateTimer_of_zero {stat : TimeStat} (atZero : stat.timerRemainedNs = 0) (delta : Nat) :
    stat.updateTimer delta = stat := by
  rw [updateTimer, if_pos atZero]

theorem remained_updateTimer_of_lt
    {stat : TimeStat} {delta : Nat} (less : delta < stat.timerRemainedNs) :
    (stat.updateTimer delta).timerRemainedNs =
      stat.timerRemainedNs - delta := by
  have notZero : stat.timerRemainedNs ≠ 0 := by omega
  rw [updateTimer, if_neg notZero, if_pos less]

theorem updateTimers_of_zero {stat : TimeStat} (atZero : stat.timerRemainedNs = 0)
    (deltas : List Nat) :
    stat.updateTimers deltas = stat := by
  induction deltas with
  | nil => rfl
  | cons delta rest ih =>
      rw [updateTimers, List.foldl_cons, updateTimer_of_zero atZero]
      exact ih

theorem remained_updateTimers_of_lt {stat : TimeStat} {deltas : List Nat}
    (less : deltas.sum < stat.timerRemainedNs) :
    (stat.updateTimers deltas).timerRemainedNs =
      stat.timerRemainedNs - deltas.sum := by
  induction deltas generalizing stat with
  | nil => rfl
  | cons delta rest ih =>
      rw [List.sum_cons] at less
      have charged :
          (stat.updateTimer delta).timerRemainedNs =
            stat.timerRemainedNs - delta :=
        remained_updateTimer_of_lt (by omega)
      have later := @ih (stat.updateTimer delta) (by omega)
      rw [List.sum_cons]
      calc
        (stat.updateTimers (delta :: rest)).timerRemainedNs =
            ((stat.updateTimer delta).updateTimers rest).timerRemainedNs :=
          rfl
        _ = stat.timerRemainedNs - delta - rest.sum := by
          rw [later, charged]
        _ = stat.timerRemainedNs - (delta + rest.sum) := by omega

theorem remained_updateTimers_pos {stat : TimeStat} (running : 0 < stat.timerRemainedNs)
    (deltas : List Nat) :
    0 < (stat.updateTimers deltas).timerRemainedNs := by
  induction deltas generalizing stat with
  | nil => exact running
  | cons delta rest ih =>
      have stillRunning : 0 < (stat.updateTimer delta).timerRemainedNs := by
        unfold updateTimer
        split
        · exact running
        · split
          · next less =>
              simp only
              omega
          · exact running
      exact ih stillRunning

theorem runsDown_of_lt {stat : TimeStat} {deltas : List Nat}
    (less : deltas.sum < stat.timerRemainedNs) : stat.RunsDown deltas where
  remained := remained_updateTimers_of_lt less
  anyCut others sameSum := by
    rw [remained_updateTimers_of_lt less, remained_updateTimers_of_lt (sameSum ▸ less), sameSum]
  expires reached := absurd less (Nat.not_lt.mpr reached)

theorem runsDown_of_zero {stat : TimeStat} (atZero : stat.timerRemainedNs = 0)
    (deltas : List Nat) : stat.RunsDown deltas where
  remained := by
    rw [updateTimers_of_zero atZero, atZero, Nat.zero_sub]
  anyCut others _ := by
    rw [updateTimers_of_zero atZero, updateTimers_of_zero atZero]
  expires _ := by
    rw [updateTimers_of_zero atZero, atZero]

theorem not_runsDown_of_reached {stat : TimeStat} {deltas : List Nat}
    (running : 0 < stat.timerRemainedNs)
    (reached : stat.timerRemainedNs ≤ deltas.sum) :
    ¬ stat.RunsDown deltas := by
  intro runsDown
  have positive := remained_updateTimers_pos running deltas
  have atZero := runsDown.expires reached
  omega

end TimeStat

/-- A real timer runs down by exactly the time it is charged if it was set to
zero or is charged less than its time, and not otherwise. -/
theorem interval_timer_runs_down_iff (stat : TimeStat) (remained : Nat) (deltas : List Nat) :
    (stat.setTimer 0 remained 0).2.RunsDown deltas ↔ remained = 0 ∨ deltas.sum < remained := by
  constructor
  · intro runsDown
    by_contra neither
    have running : 0 < remained := by omega
    have reached : remained ≤ deltas.sum := by omega
    exact TimeStat.not_runsDown_of_reached running reached runsDown
  · rintro (atZero | less)
    · exact TimeStat.runsDown_of_zero atZero deltas
    · exact TimeStat.runsDown_of_lt less

/-- A timer set to ten and charged ten still has ten. -/
theorem interval_timer_skips_last_delta :
    (TimeStat.new.setTimer 0 10 0).1 = true ∧ (TimeStat.new.setTimer 0 10 0).2.timerType = .REAL ∧
      ((TimeStat.new.setTimer 0 10 0).2.updateTimers [10]).timerRemainedNs = 10 ∧
      ¬ (TimeStat.new.setTimer 0 10 0).2.RunsDown [10] := by
  refine ⟨rfl, rfl, rfl, ?_⟩
  exact TimeStat.not_runsDown_of_reached (by decide) (by decide)

end Vegar.Task

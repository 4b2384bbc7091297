import Mathlib.Data.List.MinMax
import Vegar.Lib.Roster
import Vegar.Task.SignalMask

/-!
# Waiting for signals

The loop of `sys_rt_sigsuspend` of `api/src/imp/signal.rs` and the senders of
`api/src/signal.rs`.  A thread checks its signals and goes to sleep in two
steps; a sender puts the signal into a pending set and wakes one thread in two
steps.  All threads of a process sleep in one queue.
-/

namespace Vegar.Task

open Vegar.Lib

/-! ## Pending signals -/

structure PendingSignal where
  signo : Nat
  sender : Nat
  deriving DecidableEq, Repr

/-- `PendingSignals::put_signal`: a standard signal is pending once, the
realtime ones queue up. -/
def putSignal (pending : List PendingSignal) (signal : PendingSignal) :
    List PendingSignal :=
  if signal.signo < 32 ∧ (pending.any fun other => other.signo == signal.signo) then
    pending
  else pending ++ [signal]

/-- `PendingSignals::dequeue_signal`: the lowest signal that is not
blocked. -/
def dequeueSignal (blocked : SignalSet) (pending : List PendingSignal) :
    Option (PendingSignal × List PendingSignal) :=
  ((pending.filter fun signal => !SignalSet.has blocked signal.signo).argmin
    PendingSignal.signo).map fun signal => (signal, pending.erase signal)

structure CheckedSignals where
  delivered : Option PendingSignal
  own : List PendingSignal
  shared : List PendingSignal

/-- `ThreadSignalManager::dequeue_signal`: the thread's signals come first. -/
def dequeueEither (blocked : SignalSet) (own shared : List PendingSignal) :
    Option (PendingSignal × List PendingSignal × List PendingSignal) :=
  match dequeueSignal blocked own with
  | some (signal, rest) => some (signal, rest, shared)
  | none =>
      (dequeueSignal blocked shared).map fun taken =>
        (taken.1, own, taken.2)

/-- The loop of `check_signals`: ignored signals are dropped. -/
def checkLoop (ignored : Nat → Bool) (blocked : SignalSet) :
    Nat → List PendingSignal → List PendingSignal → CheckedSignals
  | 0, own, shared => ⟨none, own, shared⟩
  | fuel + 1, own, shared =>
      match dequeueEither blocked own shared with
      | none => ⟨none, own, shared⟩
      | some (signal, own, shared) =>
          if ignored signal.signo then
            checkLoop ignored blocked fuel own shared
          else ⟨some signal, own, shared⟩

/-- `check_signals`.  Each turn of its loop takes a pending signal. -/
def checkSignals (ignored : Nat → Bool) (blocked : SignalSet)
    (own shared : List PendingSignal) : CheckedSignals :=
  checkLoop ignored blocked (own.length + shared.length + 1) own shared

theorem dequeueSignal_eq_none {blocked : SignalSet} {pending : List PendingSignal}
    (nothing : dequeueSignal blocked pending = none) :
    ∀ signal ∈ pending, SignalSet.has blocked signal.signo = true := by
  intro signal member
  have empty := List.argmin_eq_none.mp (Option.map_eq_none_iff.mp nothing)
  have notKept := List.filter_eq_nil_iff.mp empty signal member
  simpa using notKept

theorem dequeueSignal_eq_some {blocked : SignalSet} {pending rest : List PendingSignal}
    {signal : PendingSignal}
    (taken : dequeueSignal blocked pending = some (signal, rest)) :
    rest ⊆ pending ∧ rest.length + 1 = pending.length := by
  obtain ⟨least, isLeast, isTaken⟩ := Option.map_eq_some_iff.mp taken
  obtain ⟨rfl, rfl⟩ := Prod.mk.inj isTaken
  have kept := List.argmin_mem isLeast
  have member := (List.mem_filter.mp kept).1
  have positive := List.length_pos_of_mem member
  refine ⟨List.erase_subset, ?_⟩
  rw [List.length_erase_of_mem member]
  omega

theorem dequeueEither_eq_none {blocked : SignalSet} {own shared : List PendingSignal}
    (nothing : dequeueEither blocked own shared = none) :
    ∀ signal ∈ own ++ shared, SignalSet.has blocked signal.signo = true := by
  unfold dequeueEither at nothing
  split at nothing
  · cases nothing
  · next ownNothing =>
      have sharedNothing := Option.map_eq_none_iff.mp nothing
      intro signal member
      rcases List.mem_append.mp member with isOwn | isShared
      · exact dequeueSignal_eq_none ownNothing signal isOwn
      · exact dequeueSignal_eq_none sharedNothing signal isShared

theorem dequeueEither_eq_some
    {blocked : SignalSet} {own shared ownRest sharedRest : List PendingSignal}
    {signal : PendingSignal}
    (taken : dequeueEither blocked own shared = some (signal, ownRest, sharedRest)) :
    ownRest ⊆ own ∧ sharedRest ⊆ shared ∧
      ownRest.length + sharedRest.length + 1 =
        own.length + shared.length := by
  unfold dequeueEither at taken
  split at taken
  · next ownTaken =>
      cases taken
      obtain ⟨smaller, shorter⟩ := dequeueSignal_eq_some ownTaken
      exact ⟨smaller, List.Subset.refl _, by omega⟩
  · obtain ⟨first, sharedTaken, isTaken⟩ := Option.map_eq_some_iff.mp taken
    cases isTaken
    obtain ⟨smaller, shorter⟩ := @dequeueSignal_eq_some blocked shared first.2 first.1 sharedTaken
    exact ⟨List.Subset.refl _, smaller, by omega⟩

theorem checkLoop_spec (ignored : Nat → Bool) (blocked : SignalSet)
    {fuel : Nat} {own shared : List PendingSignal}
    (enough : own.length + shared.length < fuel) :
    let checked := checkLoop ignored blocked fuel own shared
    checked.own ⊆ own ∧ checked.shared ⊆ shared ∧
      (checked.delivered = none →
        ∀ signal ∈ checked.own ++ checked.shared, SignalSet.has blocked signal.signo = true) := by
  induction fuel generalizing own shared with
  | zero => exact absurd enough (Nat.not_lt_zero _)
  | succ fuel ih =>
      unfold checkLoop
      split
      · next nothing =>
          exact ⟨List.Subset.refl _, List.Subset.refl _, fun _ => dequeueEither_eq_none nothing⟩
      · next signal ownRest sharedRest taken =>
          obtain ⟨ownSmaller, sharedSmaller, shorter⟩ := dequeueEither_eq_some taken
          split
          · have stillEnough :
                ownRest.length + sharedRest.length < fuel := by
              omega
            obtain ⟨ownLess, sharedLess, blockedLeft⟩ := ih stillEnough
            exact ⟨List.Subset.trans ownLess ownSmaller,
                List.Subset.trans sharedLess sharedSmaller, blockedLeft⟩
          · exact ⟨ownSmaller, sharedSmaller, nofun⟩

theorem checkSignals_spec (ignored : Nat → Bool) (blocked : SignalSet)
    (own shared : List PendingSignal) :
    let checked := checkSignals ignored blocked own shared
    checked.own ⊆ own ∧ checked.shared ⊆ shared ∧
      (checked.delivered = none →
        ∀ signal ∈ checked.own ++ checked.shared, SignalSet.has blocked signal.signo = true) :=
  checkLoop_spec ignored blocked (Nat.lt_succ_self _)

/-! ## Threads and senders -/

/-- Where a thread stands in the loop of `sys_rt_sigsuspend`. -/
inductive SuspendPhase where
  | outside
  | checking
  | deciding
  | asleep
  deriving DecidableEq, Repr

structure SuspendThread where
  blocked : SignalSet
  own : List PendingSignal
  phase : SuspendPhase
  deriving DecidableEq, Repr

structure SuspendState where
  threads : List SuspendThread
  shared : List PendingSignal
  queue : List Nat
  notified : List Bool
  deriving DecidableEq, Repr

/-- The steps of threads and senders.  A signal without a thread is sent to
the process.  Outside `sys_rt_sigsuspend` a thread can change its mask and
check its signals when it returns to user mode. -/
inductive SuspendAction where
  | setBlocked (thread : Nat) (set : SignalSet)
  | postTrap (thread : Nat)
  | sigsuspend (thread : Nat) (set : SignalSet)
  | checkSignals (thread : Nat)
  | waitSignal (thread : Nat)
  | send (target : Option Nat) (signo : Nat)
  | notifyOne (sender : Nat)
  deriving DecidableEq, Repr

namespace SuspendState

def setThread (state : SuspendState) (index : Nat) (thread : SuspendThread) :
    SuspendState :=
  { state with threads := state.threads.set index thread }

def threadIn (state : SuspendState) (index : Nat) (phase : SuspendPhase) :
    Option SuspendThread :=
  (state.threads[index]?).filter fun thread => thread.phase == phase

def check (state : SuspendState) (ignored : Nat → Bool) (index : Nat)
    (thread : SuspendThread) (delivered nothing : SuspendPhase) :
    SuspendState :=
  let checked := checkSignals ignored thread.blocked thread.own state.shared
  { state with shared := checked.shared }.setThread index
    { thread with
      own := checked.own
      phase := if checked.delivered.isSome then delivered else nothing }

/-- `send_signal` puts the signal of a new sender. -/
def send (state : SuspendState) (target : Option Nat) (signo : Nat) :
    SuspendState :=
  let signal : PendingSignal := ⟨signo, state.notified.length⟩
  let sent := { state with notified := state.notified ++ [false] }
  match target with
  | none => { sent with shared := putSignal state.shared signal }
  | some index =>
      { sent with
        threads := state.threads.modify index fun thread =>
          { thread with own := putSignal thread.own signal } }

/-- `notify_one` wakes the first thread of the queue. -/
def notifyOne (state : SuspendState) (sender : Nat) : SuspendState :=
  let notified := { state with notified := state.notified.set sender true }
  match state.queue with
  | [] => notified
  | first :: rest =>
      { notified with
        queue := rest
        threads := state.threads.modify first fun thread =>
          { thread with phase := .checking } }

end SuspendState

def suspendNext (ignored : Nat → Bool) (state : SuspendState) : SuspendAction → Option SuspendState
  | .setBlocked index set =>
      (state.threadIn index .outside).map fun thread =>
        state.setThread index { thread with blocked := set }
  | .postTrap index =>
      (state.threadIn index .outside).map fun thread =>
        state.check ignored index thread .outside .outside
  | .sigsuspend index set =>
      (state.threadIn index .outside).map fun thread =>
        state.setThread index
          { thread with
            blocked := SignalSet.remove (SignalSet.remove set sigkill) sigstop
            phase := .checking }
  | .checkSignals index =>
      (state.threadIn index .checking).map fun thread =>
        state.check ignored index thread .outside .deciding
  | .waitSignal index =>
      (state.threadIn index .deciding).map fun thread =>
        { state with queue := state.queue ++ [index] }.setThread index
          { thread with phase := .asleep }
  | .send target signo => some (state.send target signo)
  | .notifyOne sender =>
      if state.notified[sender]? = some false then
        some (state.notifyOne sender)
      else none

def suspendMachine (ignored : Nat → Bool) : Machine SuspendState SuspendAction where
  start state := (∀ thread ∈ state.threads, thread.own = [] ∧ thread.phase = .outside) ∧
      state.shared = [] ∧ state.queue = [] ∧ state.notified = []
  next := suspendNext ignored

/-! ## Missed signals -/

def Deliverable (ignored : Nat → Bool) (thread : SuspendThread) (signal : PendingSignal) : Prop :=
  SignalSet.has thread.blocked signal.signo = false ∧ ignored signal.signo = false

instance (ignored : Nat → Bool) (thread : SuspendThread) (signal : PendingSignal) :
    Decidable (Deliverable ignored thread signal) :=
  inferInstanceAs (Decidable (_ ∧ _))

def NoMissedSignal (ignored : Nat → Bool) (state : SuspendState) : Prop :=
  ∀ thread ∈ state.threads, thread.phase = .asleep →
    ∀ signal ∈ thread.own ++ state.shared,
      Deliverable ignored thread signal → state.notified[signal.sender]? ≠ some true

def NotifyReaches (ignored : Nat → Bool) (state : SuspendState) : SuspendAction → Prop
  | .notifyOne sender =>
      ∀ index ∈ List.range state.threads.length,
        ∀ thread ∈ state.threads[index]?, thread.phase ≠ .outside →
          ∀ signal ∈ thread.own ++ state.shared,
            signal.sender = sender → Deliverable ignored thread signal →
              thread.phase = .checking ∨ state.queue.head? = some index
  | _ => True

instance (ignored : Nat → Bool) (state : SuspendState) :
    (action : SuspendAction) → Decidable (NotifyReaches ignored state action)
  | .notifyOne _ =>
      inferInstanceAs
        (Decidable (∀ index ∈ List.range state.threads.length, ∀ thread ∈ state.threads[index]?, _))
  | .setBlocked _ _ => isTrue trivial
  | .postTrap _ => isTrue trivial
  | .sigsuspend _ _ => isTrue trivial
  | .checkSignals _ => isTrue trivial
  | .waitSignal _ => isTrue trivial
  | .send _ _ => isTrue trivial

def SuspendPhase.settled : SuspendPhase → Bool
  | .deciding => true
  | .asleep => true
  | _ => false

def Attentive (ignored : Nat → Bool) (state : SuspendState) : Prop :=
  ∀ thread ∈ state.threads, thread.phase.settled = true →
    ∀ signal ∈ thread.own ++ state.shared,
      Deliverable ignored thread signal → state.notified[signal.sender]? ≠ some true

theorem Attentive.noMissedSignal {ignored : Nat → Bool} {state : SuspendState}
    (attentive : Attentive ignored state) :
    NoMissedSignal ignored state := by
  intro thread member isAsleep
  apply attentive thread member
  rw [isAsleep]
  rfl

namespace Attentive

variable {ignored : Nat → Bool} {source : SuspendState}

theorem of_set (attentive : Attentive ignored source) {index : Nat} {thread : SuspendThread}
    {shared : List PendingSignal} {queue : List Nat}
    (smaller : shared ⊆ source.shared)
    (own :
      thread.phase.settled = true →
        ∀ signal ∈ thread.own ++ shared,
          Deliverable ignored thread signal → source.notified[signal.sender]? ≠ some true) :
    Attentive ignored
      { source with
        threads := source.threads.set index thread
        shared := shared
        queue := queue } := by
  intro other member settled signal pending deliverable
  rcases List.mem_or_eq_of_mem_set member with old | rfl
  · apply attentive other old settled signal _ deliverable
    rcases List.mem_append.mp pending with isOwn | isShared
    · exact List.mem_append_left _ isOwn
    · exact List.mem_append_right _ (smaller isShared)
  · exact own settled signal pending deliverable

theorem check (attentive : Attentive ignored source) {index : Nat} {thread : SuspendThread}
    {delivered nothing : SuspendPhase}
    (resumes : delivered.settled = false) :
    Attentive ignored (source.check ignored index thread delivered nothing) := by
  obtain ⟨-, sharedLess, blockedLeft⟩ :=
    checkSignals_spec ignored thread.blocked thread.own source.shared
  refine attentive.of_set sharedLess ?_
  intro settled signal pending deliverable
  cases isDelivered : (checkSignals ignored thread.blocked thread.own source.shared).delivered with
  | some acted =>
      simp only [isDelivered, Option.isSome_some, if_true] at settled
      rw [resumes] at settled
      cases settled
  | none =>
      have blocked := blockedLeft isDelivered signal pending
      have unblocked := deliverable.1
      rw [blocked] at unblocked
      cases unblocked

theorem mem_putSignal {pending : List PendingSignal} {signal other : PendingSignal}
    (member : other ∈ putSignal pending signal) :
    other ∈ pending ∨ other = signal := by
  unfold putSignal at member
  split at member
  · exact Or.inl member
  · rcases List.mem_append.mp member with old | new
    · exact Or.inl old
    · exact Or.inr (List.mem_singleton.mp new)

theorem send (attentive : Attentive ignored source) (target : Option Nat) (signo : Nat) :
    Attentive ignored (source.send target signo) := by
  have notYet (sender : Nat) (before : source.notified[sender]? ≠ some true) :
      (source.notified ++ [false])[sender]? ≠ some true := by
    intro after
    rcases Roster.old_or_added after with old | ⟨-, isTrue⟩
    · exact before old
    · cases isTrue
  have fresh : (source.notified ++ [false])[source.notified.length]? ≠ some true := by
    apply notYet
    simp
  cases target with
  | none =>
      intro thread member settled signal pending deliverable
      rcases List.mem_append.mp pending with isOwn | isShared
      · apply notYet
        exact attentive thread member settled signal (List.mem_append_left _ isOwn) deliverable
      · rcases mem_putSignal isShared with old | rfl
        · apply notYet
          exact attentive thread member settled signal (List.mem_append_right _ old) deliverable
        · exact fresh
  | some index =>
      intro thread member settled signal pending deliverable
      rcases Roster.mem_or_changed member with old | ⟨before, old, rfl⟩
      · apply notYet
        exact attentive thread old settled signal pending deliverable
      · rcases List.mem_append.mp pending with isOwn | isShared
        · rcases mem_putSignal isOwn with was | rfl
          · apply notYet
            exact attentive before old settled signal (List.mem_append_left _ was) deliverable
          · exact fresh
        · apply notYet
          exact attentive before old settled signal (List.mem_append_right _ isShared) deliverable

theorem notifyOne (attentive : Attentive ignored source) {sender : Nat}
    (reaches : NotifyReaches ignored source (.notifyOne sender)) :
    Attentive ignored (source.notifyOne sender) := by
  have old (index : Nat) (thread : SuspendThread) (found : source.threads[index]? = some thread)
      (settled : thread.phase.settled = true)
      (notFirst : source.queue.head? ≠ some index)
      (signal : PendingSignal)
      (pending : signal ∈ thread.own ++ source.shared)
      (deliverable : Deliverable ignored thread signal) :
      (source.notified.set sender true)[signal.sender]? ≠ some true := by
    have bounded := (List.getElem?_eq_some_iff.mp found).1
    have inside : thread.phase ≠ .outside := by
      rintro isOutside
      rw [isOutside] at settled
      cases settled
    by_cases isSender : signal.sender = sender
    · rcases reaches index (List.mem_range.mpr bounded) thread found inside
        signal pending isSender deliverable with isChecking | isFirst
      · rw [isChecking] at settled
        cases settled
      · exact absurd isFirst notFirst
    · rw [List.getElem?_set_ne (Ne.symm isSender)]
      exact attentive thread (List.mem_of_getElem? found) settled signal pending deliverable
  unfold SuspendState.notifyOne
  cases queue : source.queue with
  | nil =>
      intro thread member settled signal pending deliverable
      obtain ⟨index, found⟩ := List.mem_iff_getElem?.mp member
      refine old index thread found settled ?_ signal pending deliverable
      rw [queue]
      exact nofun
  | cons first rest =>
      intro thread member settled signal pending deliverable
      obtain ⟨index, found⟩ := List.mem_iff_getElem?.mp member
      obtain ⟨before, beforeFound, ⟨-, rfl⟩ | ⟨notFirst, rfl⟩⟩ := Roster.exists_before_modify found
      · cases settled
      · refine old index thread beforeFound settled ?_ signal pending deliverable
        rw [queue]
        exact fun isFirst => notFirst (Option.some.inj isFirst).symm

theorem threadIn_eq_some {index : Nat} {phase : SuspendPhase} {thread : SuspendThread}
    (found : source.threadIn index phase = some thread) :
    thread ∈ source.threads ∧ thread.phase = phase := by
  obtain ⟨isThread, inPhase⟩ := Option.filter_eq_some_iff.mp found
  exact ⟨List.mem_of_getElem? isThread, beq_iff_eq.mp inPhase⟩

theorem step {target : SuspendState} {action : SuspendAction} (attentive : Attentive ignored source)
    (reaches : NotifyReaches ignored source action)
    (stepped : suspendNext ignored source action = some target) :
    Attentive ignored target := by
  cases action with
  | setBlocked index set =>
      obtain ⟨thread, found, rfl⟩ := Option.map_eq_some_iff.mp stepped
      obtain ⟨-, isOutside⟩ := threadIn_eq_some found
      refine attentive.of_set (List.Subset.refl _) ?_
      intro settled
      rw [isOutside] at settled
      cases settled
  | postTrap index =>
      obtain ⟨thread, -, rfl⟩ := Option.map_eq_some_iff.mp stepped
      exact attentive.check rfl
  | sigsuspend index set =>
      obtain ⟨thread, -, rfl⟩ := Option.map_eq_some_iff.mp stepped
      exact attentive.of_set (List.Subset.refl _) nofun
  | checkSignals index =>
      obtain ⟨thread, -, rfl⟩ := Option.map_eq_some_iff.mp stepped
      exact attentive.check rfl
  | waitSignal index =>
      obtain ⟨thread, found, rfl⟩ := Option.map_eq_some_iff.mp stepped
      obtain ⟨member, isDeciding⟩ := threadIn_eq_some found
      refine attentive.of_set (List.Subset.refl _) ?_
      intro _ signal pending deliverable
      refine attentive thread member ?_ signal pending deliverable
      rw [isDeciding]
      rfl
  | send target signo =>
      obtain rfl := Option.some.inj stepped
      exact attentive.send target signo
  | notifyOne sender =>
      obtain ⟨-, isTarget⟩ := Option.ite_none_right_eq_some.mp stepped
      obtain rfl := Option.some.inj isTarget
      exact attentive.notifyOne reaches

end Attentive

/-- In every run in which each notification reaches every thread in the call
that could act on its signal, before that thread checks or as the one that is
woken, no thread sleeps through a signal. -/
theorem sigsuspend_wakes_of_notify_reaches (ignored : Nat → Bool) {state : SuspendState}
    (reached : (suspendMachine ignored).ReachableWithin (NotifyReaches ignored) state) :
    NoMissedSignal ignored state := by
  apply Attentive.noMissedSignal
  refine Machine.ReachableWithin.invariant ?_ ?_ reached
  · rintro start ⟨idle, -, -, -⟩ thread member settled
    rw [(idle thread member).2] at settled
    cases settled
  · intro source action target _ attentive reaches stepped
    exact attentive.step reaches stepped

def oneSuspendThread : SuspendState := ⟨[⟨0, [], .outside⟩], [], [], []⟩

/-- The thread sleeps, a signal is sent to it and wakes it, and it checks its
signals again. -/
theorem sigsuspend_wakes_of_notify_reaches_sleeper :
    ∃ state, (suspendMachine fun _ => false).ReachableWithin (NotifyReaches fun _ => false) state ∧
      state.notified = [true] ∧
      (state.threads.map SuspendThread.phase) = [.checking] ∧
      state.shared = [⟨10, 0⟩] ∧
      NoMissedSignal (fun _ => false) state := by
  obtain ⟨state, reached, observed⟩ := @Machine.exists_reachableWithin_of_exec _ _
      (suspendMachine fun _ => false) (NotifyReaches fun _ => false)
      oneSuspendThread
      [.sigsuspend 0 0, .checkSignals 0, .waitSignal 0, .send none 10, .notifyOne 0]
      (fun state => decide
        (state.notified = [true] ∧ (state.threads.map SuspendThread.phase) = [.checking] ∧
          state.shared = [⟨10, 0⟩]))
      ⟨by decide, rfl, rfl, rfl⟩
      (Machine.meets_of_checkMeets (by decide +kernel)) (by decide +kernel)
  obtain ⟨notified, phases, pending⟩ := of_decide_eq_true observed
  exact ⟨state, reached, notified, phases, pending,
      sigsuspend_wakes_of_notify_reaches (fun _ => false) reached⟩

/-- A signal that is sent and notified between the check and the sleep finds
the queue empty, and the thread sleeps through it. -/
theorem sigsuspend_signal_before_sleep_missed :
    ∃ state, (suspendMachine fun _ => false).Reachable state ∧
      state.threads = [⟨0, [], .asleep⟩] ∧ state.shared = [⟨10, 0⟩] ∧
      state.notified = [true] ∧ ¬ NoMissedSignal (fun _ => false) state := by
  obtain ⟨state, reached, observed⟩ :=
    @Machine.exists_reachable_of_exec _ _ (suspendMachine fun _ => false) oneSuspendThread
      [.sigsuspend 0 0, .checkSignals 0, .send none 10, .notifyOne 0, .waitSignal 0]
      (fun state => decide
        (state.threads = [⟨0, [], .asleep⟩] ∧ state.shared = [⟨10, 0⟩] ∧ state.notified = [true]))
      ⟨by decide, rfl, rfl, rfl⟩ (by decide +kernel)
  obtain ⟨asleep, pending, notified⟩ := of_decide_eq_true observed
  refine ⟨state, reached, asleep, pending, notified, ?_⟩
  intro noMissed
  refine noMissed ⟨0, [], .asleep⟩ ?_ rfl ⟨10, 0⟩ ?_ ⟨rfl, rfl⟩ ?_
  · rw [asleep]
    exact List.mem_singleton_self _
  · rw [pending]
    exact List.mem_singleton_self _
  · rw [notified]
    rfl

end Vegar.Task

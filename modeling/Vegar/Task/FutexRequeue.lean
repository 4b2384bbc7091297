import Vegar.Task.FutexCalls

/-!
# Requeueing conserves the waiters

A call of `FUTEX_REQUEUE` or `FUTEX_CMP_REQUEUE` with nobody else at the
table.  Tasks are counted by the address they wait on, so that references and
the numbers of the queues do not appear in the result.
-/

namespace Vegar.Task

open Vegar.Lib

namespace FutexTable

structure Separate (futexes : FutexTable) : Prop where
  known : ∀ key queue, futexes.table key = some queue → queue < futexes.queues.length
  single :
    ∀ left right queue, futexes.table left = some queue →
      futexes.table right = some queue → left = right

section Addresses

variable {futexes after : FutexTable}

theorem waitingOn_of_some {addr queue : Nat} (found : futexes.table addr = some queue) :
    futexes.waitingOn addr = futexes.tasksOf queue := by
  rw [waitingOn, found]

theorem waitingOn_of_none {addr : Nat} (missing : futexes.table addr = none) :
    futexes.waitingOn addr = [] := by
  rw [waitingOn, missing]

theorem waitingOn_setStrong (queue addr : Nat) (change : Nat → Nat) :
    (futexes.setStrong queue change).waitingOn addr =
      futexes.waitingOn addr := by
  unfold waitingOn
  rw [table_setStrong]
  cases futexes.table addr with
  | none => rfl
  | some stored => exact tasksOf_setStrong _ _ _ _

theorem Separate.queue_ne (separate : futexes.Separate) {left right queue other : Nat}
    (found : futexes.table left = some queue)
    (foundOther : futexes.table right = some other)
    (different : left ≠ right) : queue ≠ other := by
  rintro rfl
  exact different (separate.single left right queue found foundOther)

theorem Separate.setStrong (separate : futexes.Separate) (queue : Nat) (change : Nat → Nat) :
    (futexes.setStrong queue change).Separate where
  known key stored found := by
    rw [length_setStrong]
    exact separate.known key stored found
  single := separate.single

theorem table_getOrInsert_self (addr : Nat) :
    (futexes.getOrInsert addr).2.table addr = some (futexes.getOrInsert addr).1 := by
  unfold getOrInsert
  split
  · next found => exact found
  · exact Function.update_self _ _ _

theorem old_or_new_of_getOrInsert {addr key queue : Nat}
    (found : (futexes.getOrInsert addr).2.table key = some queue) :
    futexes.table key = some queue ∨
      key = addr ∧ queue = futexes.queues.length ∧
        (futexes.getOrInsert addr).2.queues.length =
          futexes.queues.length + 1 := by
  cases present : futexes.table addr with
  | some stored =>
      simp only [getOrInsert, present] at found
      exact Or.inl found
  | none =>
      simp only [getOrInsert, present] at found ⊢
      by_cases same : key = addr
      · subst same
        rw [Function.update_self] at found
        refine Or.inr ⟨rfl, (Option.some.inj found).symm, ?_⟩
        rw [List.length_append, List.length_singleton]
      · rw [Function.update_of_ne same] at found
        exact Or.inl found

theorem length_le_getOrInsert (addr : Nat) :
    futexes.queues.length ≤ (futexes.getOrInsert addr).2.queues.length := by
  unfold getOrInsert
  split
  · rw [length_setStrong]
  · rw [List.length_append]
    exact Nat.le_add_right _ _

theorem Separate.getOrInsert (separate : futexes.Separate) (addr : Nat) :
    (futexes.getOrInsert addr).2.Separate where
  known key queue found := by
    have longer := @length_le_getOrInsert futexes addr
    rcases old_or_new_of_getOrInsert found with old | ⟨-, isNew, length⟩
    · exact Nat.lt_of_lt_of_le (separate.known key queue old) longer
    · omega
  single left right queue leftFound rightFound := by
    rcases old_or_new_of_getOrInsert leftFound with
      leftOld | ⟨leftSame, leftNew, -⟩
    · have less := separate.known left queue leftOld
      rcases old_or_new_of_getOrInsert rightFound with
        rightOld | ⟨-, rightNew, -⟩
      · exact separate.single left right queue leftOld rightOld
      · omega
    · rcases old_or_new_of_getOrInsert rightFound with
        rightOld | ⟨rightSame, -, -⟩
      · have less := separate.known right queue rightOld
        omega
      · rw [leftSame, rightSame]

theorem waitingOn_getOrInsert (addr asked : Nat) :
    (futexes.getOrInsert addr).2.waitingOn asked =
      futexes.waitingOn asked := by
  cases found : futexes.table asked with
  | some queue =>
      rw [waitingOn_of_some (table_getOrInsert_of_some _ addr found),
        waitingOn_of_some found, tasksOf_getOrInsert]
  | none =>
      rw [waitingOn_of_none found]
      by_cases same : asked = addr
      · subst same
        rw [waitingOn_of_some (table_getOrInsert_self asked), tasksOf_getOrInsert]
        have isNew : (futexes.getOrInsert asked).1 = futexes.queues.length := by
          simp only [FutexTable.getOrInsert, found]
        rw [isNew, tasksOf, List.getElem?_eq_none (le_refl _)]
        rfl
      · have stillMissing : (futexes.getOrInsert addr).2.table asked = none := by
          have unchanged := isSome_table_getOrInsert futexes addr asked
          rw [found] at unchanged
          simpa [same] using unchanged
        exact waitingOn_of_none stillMissing

theorem table_dropBody_of_ne {key other : Nat} (queue : Nat) (different : other ≠ key) :
    (futexes.dropBody key queue).table other = futexes.table other := by
  unfold dropBody
  split
  · split
    · rfl
    · exact Function.update_of_ne different _ _
  · rfl

theorem tasksOf_of_removesKey {queue : Nat} (removes : futexes.removesKey queue = true) :
    futexes.tasksOf queue = [] := by
  unfold removesKey at removes
  cases found : futexes.queues[queue]? with
  | none =>
      rw [found] at removes
      cases removes
  | some entry =>
      rw [found] at removes
      obtain ⟨-, empty⟩ := Bool.and_eq_true_iff.mp removes
      rw [tasksOf, found]
      exact List.isEmpty_iff.mp empty

theorem waitingOn_dropBody {key queue : Nat} (stored : futexes.table key = some queue)
    (addr : Nat) :
    (futexes.dropBody key queue).waitingOn addr =
      futexes.waitingOn addr := by
  by_cases removes : futexes.removesKey queue = true
  · simp only [dropBody, if_pos removes, stored]
    rw [waitingOn_setStrong]
    by_cases same : addr = key
    · subst same
      rw [waitingOn_of_some stored, tasksOf_of_removesKey removes]
      exact waitingOn_of_none (Function.update_self _ _ _)
    · simp only [waitingOn, Function.update_of_ne same]
      rfl
  · rw [dropBody, if_neg removes]

end Addresses

end FutexTable

/-! ## One call by itself -/

inductive CallRuns (word : Nat → BitVec 32) (task : Nat) (args : FutexArgs) :
    FutexTable → FutexPhase → List Nat → FutexTable → FutexPhase → Prop
  | refl (futexes : FutexTable) (phase : FutexPhase) :
      CallRuns word task args futexes phase [] futexes phase
  | step {futexes after : FutexTable} {phase later : FutexPhase}
      {effect : FutexEffect} {woken : List Nat}
      (stepped : futexStep word futexes task args phase = some effect)
      (runs : CallRuns word task args effect.futexes effect.phase woken after later) :
      CallRuns word task args futexes phase (effect.woken.toList ++ woken) after later

namespace CallRuns

variable {word : Nat → BitVec 32} {task : Nat} {args : FutexArgs}
  {futexes between after : FutexTable} {phase middle later : FutexPhase}
  {woken moreWoken : List Nat}

theorem goto (stepped : futexStep word futexes task args phase = some (.goto between middle))
    (runs : CallRuns word task args between middle woken after later) :
    CallRuns word task args futexes phase woken after later :=
  .step stepped runs

theorem trans (first : CallRuns word task args futexes phase woken between middle)
    (second : CallRuns word task args between middle moreWoken after later) :
    CallRuns word task args futexes phase (woken ++ moreWoken) after
      later := by
  induction first with
  | refl => exact second
  | step stepped _ ih =>
      rw [List.append_assoc]
      exact .step stepped (ih second)

end CallRuns

theorem FutexPhase.wake_wake (args : FutexArgs) (phase : FutexPhase) :
    (phase.wake args).wake args = phase.wake args := by
  cases phase <;> rfl

def FutexCall.woken (call : FutexCall) : FutexCall :=
  { call with phase := call.phase.wake call.args }

theorem exists_repeats_of_callRuns {word : Nat → BitVec 32} {index : Nat} {args : FutexArgs}
    {futexes after : FutexTable} {phase later : FutexPhase}
    {woken : List Nat}
    (runs : CallRuns word index args futexes phase woken after later)
    {state : SysFutexState} (sameWord : state.word = word)
    (sameFutexes : state.futexes = futexes)
    (found : state.calls[index]? = some ⟨args, phase⟩) :
    ∃ target, sysFutexMachine.Repeats (.step index) state target ∧ target.futexes = after ∧
      target.calls[index]? = some ⟨args, later⟩ ∧
      ∀ other, other ≠ index → target.calls[other]? = (state.calls[other]?).map fun call =>
            if other ∈ woken then call.woken else call := by
  induction runs generalizing state with
  | refl futexes phase =>
      refine ⟨state, .refl _ _ _, sameFutexes, found, ?_⟩
      intro other _
      simp
  | @step futexes after phase later effect woken stepped _ ih =>
      have machineStep :
          sysFutexMachine.next state (.step index) = some (state.apply index effect) := by
        change sysFutexNext state (.step index) = _
        simp only [sysFutexNext, found, Option.bind_some, sameWord,
          sameFutexes, stepped, Option.map_some]
      have callsAfter := state.getElem?_apply index effect
      have moved :
          (state.apply index effect).calls[index]? =
            some ⟨args, effect.phase⟩ := by
        rw [callsAfter, found, Option.map_some, if_pos rfl]
      have futexesAfter : (state.apply index effect).futexes = effect.futexes := by
        rw [SysFutexState.apply, SysFutexState.setPhase]
        cases effect.woken <;> rfl
      have wordAfter : (state.apply index effect).word = word := by
        rw [SysFutexState.apply, SysFutexState.setPhase]
        cases effect.woken <;> exact sameWord
      obtain ⟨target, repeated, isAfter, isLater, others⟩ := ih wordAfter futexesAfter moved
      refine ⟨target, repeated.head machineStep, isAfter, isLater, ?_⟩
      intro other different
      rw [others other different, callsAfter, Option.map_map]
      congr 1
      funext call
      have memberIff :
          other ∈ effect.woken.toList ++ woken ↔ effect.woken = some other ∨ other ∈ woken := by
        rw [List.mem_append, Option.mem_toList]
      simp only [Function.comp_apply, if_neg different, memberIff]
      by_cases now : effect.woken = some other
      · by_cases again : other ∈ woken
        · simp [now, again, FutexCall.woken, FutexPhase.wake_wake]
        · simp [now, again, FutexCall.woken]
      · simp [now, FutexCall.woken]

/-! ## The parts of a requeueing -/

section Parts

variable {word : Nat → BitVec 32} {task : Nat} {args : FutexArgs}

theorem callRuns_notifying (futexes : FutexTable) (wq : Nat) (wq2 : Option Nat)
    (remaining count : Nat) :
    ∃ after,
      CallRuns word task args futexes (.notifying wq wq2 remaining count)
        ((futexes.tasksOf wq).take remaining) after
        (.notified wq wq2 (count + min remaining (futexes.tasksOf wq).length)) ∧
      after.table = futexes.table ∧
      after.queues.length = futexes.queues.length ∧
      after.tasksOf wq = (futexes.tasksOf wq).drop remaining ∧
      ∀ other, other ≠ wq → after.tasksOf other = futexes.tasksOf other := by
  induction remaining generalizing futexes count with
  | zero =>
      refine ⟨futexes, ?_, rfl, rfl, rfl, fun _ _ => rfl⟩
      rw [Nat.zero_min, Nat.add_zero, List.take_zero]
      exact .goto rfl (.refl _ _)
  | succ remaining ih =>
      cases isWoken : futexes.notifyOne wq with
      | none =>
          have empty := FutexTable.notifyOne_eq_none.mp isWoken
          have stepped :
              futexStep word futexes task args (.notifying wq wq2 (remaining + 1) count) =
                some (.goto futexes (.notified wq wq2 count)) := by
            simp only [futexStep, futexNotify, isWoken]
          refine ⟨futexes, ?_, rfl, rfl, ?_, fun _ _ => rfl⟩
          · rw [empty, List.take_nil, List.length_nil, Nat.min_zero, Nat.add_zero]
            exact .goto stepped (.refl _ _)
          · rw [empty, List.drop_nil]
      | some woken =>
          obtain ⟨first, moved⟩ := woken
          obtain ⟨tasks, othersMoved⟩ := FutexTable.notifyOne_eq_some isWoken
          have sameTable := FutexTable.table_notifyOne isWoken
          have sameLength : moved.queues.length = futexes.queues.length := by
            simp only [FutexTable.notifyOne, tasks, Option.some.injEq, Prod.mk.injEq] at isWoken
            rw [← isWoken.2, FutexTable.length_setTasks]
          obtain ⟨after, runs, table, length, rest, others⟩ := ih moved (count + 1)
          have stepped :
              futexStep word futexes task args (.notifying wq wq2 (remaining + 1) count) =
                some ⟨moved, [], some first, .notifying wq wq2 remaining (count + 1)⟩ := by
            simp only [futexStep, futexNotify, isWoken]
          have counts :
              count + 1 + min remaining (moved.tasksOf wq).length =
                count + min (remaining + 1) (futexes.tasksOf wq).length := by
            rw [tasks, List.length_cons]
            omega
          refine ⟨after, ?_, table.trans sameTable, length.trans sameLength, ?_, ?_⟩
          · rw [← counts, tasks, List.take_succ_cons]
            exact .step stepped runs
          · rw [rest, tasks, List.drop_succ_cons]
          · intro other different
            rw [others other different, othersMoved other different]

theorem callRuns_dropping (futexes : FutexTable) (guards : List WaitQueueGuard)
    (result : LinuxResult Nat)
    (stored : ∀ guard ∈ guards, futexes.table guard.key = some guard.inner ∧ guard.dropped = false)
    (distinct : (guards.map WaitQueueGuard.key).Nodup) :
    ∃ after, CallRuns word task args futexes (.dropping guards result) [] after (.returned result) ∧
      ∀ addr, after.waitingOn addr = futexes.waitingOn addr := by
  induction guards generalizing futexes with
  | nil => exact ⟨futexes, .goto rfl (.refl _ _), fun _ => rfl⟩
  | cons guard rest ih =>
      obtain ⟨here, notDropped⟩ := stored guard List.mem_cons_self
      rw [List.map_cons, List.nodup_cons] at distinct
      let dropped := (futexes.dropBody guard.key guard.inner).dropInner guard.inner
      have stillStored :
          ∀ other ∈ rest, dropped.table other.key = some other.inner ∧ other.dropped = false := by
        intro other member
        have different : other.key ≠ guard.key := by
          intro same
          apply distinct.1
          rw [← same]
          exact List.mem_map_of_mem member
        obtain ⟨there, unused⟩ := stored other (List.mem_cons_of_mem _ member)
        refine ⟨?_, unused⟩
        change (futexes.dropBody guard.key guard.inner).table other.key = _
        rw [FutexTable.table_dropBody_of_ne _ different, there]
      obtain ⟨after, runs, sameWaiting⟩ := ih dropped stillStored distinct.2
      have body :
          futexStep word futexes task args (.dropping (guard :: rest) result) =
            some
              (.goto (futexes.dropBody guard.key guard.inner)
                (.dropping ({ guard with dropped := true } :: rest) result)) := by
        simp [futexStep, futexDrop, notDropped]
      refine ⟨after, .goto body (.goto rfl runs), ?_⟩
      intro addr
      rw [sameWaiting addr]
      change (((futexes.dropBody guard.key guard.inner).setStrong guard.inner _).waitingOn addr) = _
      rw [FutexTable.waitingOn_setStrong, FutexTable.waitingOn_dropBody here]

end Parts

theorem FutexTable.tasksOf_requeue {futexes : FutexTable} {source target : Nat} (count : Nat)
    (different : source ≠ target)
    (sourceKnown : source < futexes.queues.length)
    (targetKnown : target < futexes.queues.length) :
    let moved := (futexes.requeue count source target).2
    moved.tasksOf source = (futexes.tasksOf source).drop count ∧
      moved.tasksOf target = futexes.tasksOf target ++ (futexes.tasksOf source).take count ∧
      ∀ other, other ≠ source → other ≠ target → moved.tasksOf other = futexes.tasksOf other := by
  have stillKnown : target < (futexes.setTasks source (List.drop count)).queues.length := by
    rw [length_setTasks]
    exact targetKnown
  refine ⟨?_, ?_, ?_⟩
  · rw [requeue, tasksOf_setTasks_of_ne _ _ (Ne.symm different),
      tasksOf_setTasks_self _ _ sourceKnown]
  · rw [requeue, tasksOf_setTasks_self _ _ stillKnown, tasksOf_setTasks_of_ne _ _ different]
  · intro other notSource notTarget
    rw [requeue, tasksOf_setTasks_of_ne _ _ (Ne.symm notTarget),
      tasksOf_setTasks_of_ne _ _ (Ne.symm notSource)]

namespace FutexArgs

def wakes (args : FutexArgs) (waiting : Nat) : Nat := min args.value.toNat waiting

def moves (args : FutexArgs) (waiting : Nat) : Nat := min args.value2 (waiting - args.wakes waiting)

end FutexArgs

structure FutexTable.Requeued (args : FutexArgs) (before after : FutexTable) : Prop where
  source :
    after.waitingOn args.uaddr =
      (before.waitingOn args.uaddr).drop
        (args.wakes (before.waitingOn args.uaddr).length +
          args.moves (before.waitingOn args.uaddr).length)
  target :
    after.waitingOn args.uaddr2 =
      before.waitingOn args.uaddr2 ++
        ((before.waitingOn args.uaddr).drop
          (args.wakes (before.waitingOn args.uaddr).length)).take
            (args.moves (before.waitingOn args.uaddr).length)
  others :
    ∀ addr, addr ≠ args.uaddr → addr ≠ args.uaddr2 → after.waitingOn addr = before.waitingOn addr

theorem FutexTable.Requeued.of_queues {args : FutexArgs} {before inserted moved : FutexTable}
    (separate : inserted.Separate)
    (sameWaiting : ∀ addr, inserted.waitingOn addr = before.waitingOn addr)
    {wq wq2 : Nat} (found : inserted.table args.uaddr = some wq)
    (found2 : inserted.table args.uaddr2 = some wq2)
    (sameTable : moved.table = inserted.table)
    (source :
      moved.tasksOf wq =
        (before.waitingOn args.uaddr).drop
          (args.wakes (before.waitingOn args.uaddr).length +
            args.moves (before.waitingOn args.uaddr).length))
    (target :
      moved.tasksOf wq2 =
        inserted.tasksOf wq2 ++
          ((before.waitingOn args.uaddr).drop
            (args.wakes (before.waitingOn args.uaddr).length)).take
              (args.moves (before.waitingOn args.uaddr).length))
    (others : ∀ queue, queue ≠ wq → queue ≠ wq2 → moved.tasksOf queue = inserted.tasksOf queue) :
    FutexTable.Requeued args before moved where
  source := by
    rw [← sameTable] at found
    rw [waitingOn_of_some found, source]
  target := by
    rw [← sameWaiting, waitingOn_of_some found2]
    rw [← sameTable] at found2
    rw [waitingOn_of_some found2, target]
  others addr notSource notTarget := by
    rw [← sameWaiting]
    cases stored : inserted.table addr with
    | none =>
        rw [waitingOn_of_none stored]
        rw [← sameTable] at stored
        exact waitingOn_of_none stored
    | some queue =>
        have notFirst := separate.queue_ne stored found notSource
        have notSecond := separate.queue_ne stored found2 notTarget
        rw [waitingOn_of_some stored, ← others queue notFirst notSecond]
        rw [← sameTable] at stored
        exact waitingOn_of_some stored

theorem FutexTable.Requeued.congr {args : FutexArgs} {before moved after : FutexTable}
    (requeued : FutexTable.Requeued args before moved)
    (sameWaiting : ∀ addr, after.waitingOn addr = moved.waitingOn addr) :
    FutexTable.Requeued args before after where
  source := (sameWaiting _).trans requeued.source
  target := (sameWaiting _).trans requeued.target
  others addr notSource notTarget :=
    (sameWaiting addr).trans (requeued.others addr notSource notTarget)

section Requeueing

variable {word : Nat → BitVec 32} {task : Nat} {args : FutexArgs}

theorem futexFinish_requeues {futexes : FutexTable} {waiting : List Nat} {wq wq2 : Nat}
    (different : wq ≠ wq2) (known : wq < futexes.queues.length)
    (known2 : wq2 < futexes.queues.length)
    (left : futexes.tasksOf wq = waiting.drop args.value.toNat) :
    ∃ after,
      futexFinish futexes args wq (some wq2) (args.wakes waiting.length) =
        .goto after
          (.dropping [⟨args.uaddr, wq, false⟩, ⟨args.uaddr2, wq2, false⟩]
            (.ok (args.wakes waiting.length + args.moves waiting.length))) ∧
      after.table = futexes.table ∧
      after.tasksOf wq = waiting.drop (args.wakes waiting.length + args.moves waiting.length) ∧
      after.tasksOf wq2 =
        futexes.tasksOf wq2 ++
          (waiting.drop (args.wakes waiting.length)).take (args.moves waiting.length) ∧
      ∀ other, other ≠ wq → other ≠ wq2 → after.tasksOf other = futexes.tasksOf other := by
  by_cases enough : args.value.toNat ≤ waiting.length
  · have wokeAll : args.wakes waiting.length = args.value.toNat := Nat.min_eq_left enough
    have movesEq :
        args.moves waiting.length = min args.value2 (waiting.length - args.value.toNat) := by
      rw [FutexArgs.moves, wokeAll]
    obtain ⟨sourceLeft, targetGets, others⟩ :=
      FutexTable.tasksOf_requeue args.value2 different known known2
    refine ⟨(futexes.requeue args.value2 wq wq2).2, ?_, rfl, ?_, ?_, others⟩
    · have moved :
          (futexes.requeue args.value2 wq wq2).1 =
            args.moves waiting.length := by
        rw [FutexTable.requeue, left, List.length_take, List.length_drop, movesEq]
      simp only [futexFinish, wokeAll, if_true, moved]
    · rw [sourceLeft, left, List.drop_drop, wokeAll, movesEq]
      by_cases all : args.value2 ≤ waiting.length - args.value.toNat
      · rw [Nat.min_eq_left all]
      · rw [List.drop_eq_nil_of_le (by omega), List.drop_eq_nil_of_le (by omega)]
    · rw [targetGets, left, wokeAll, movesEq]
      by_cases all : args.value2 ≤ waiting.length - args.value.toNat
      · rw [Nat.min_eq_left all]
      · rw [List.take_of_length_le (by rw [List.length_drop]; omega),
          List.take_of_length_le (by rw [List.length_drop]; omega)]
  · have wokeEvery : args.wakes waiting.length = waiting.length := Nat.min_eq_right (by omega)
    have movesNone : args.moves waiting.length = 0 := by
      rw [FutexArgs.moves, wokeEvery, Nat.sub_self, Nat.min_zero]
    have fewer : waiting.length ≠ args.value.toNat := by omega
    refine ⟨futexes, ?_, rfl, ?_, ?_, fun _ _ _ => rfl⟩
    · simp only [futexFinish, wokeEvery, movesNone, if_neg fewer, Nat.add_zero]
    · rw [left, List.drop_eq_nil_of_le (by omega), List.drop_eq_nil_of_le (by omega)]
    · rw [movesNone, List.take_zero, List.append_nil]

theorem callRuns_requeue_of_some {futexes : FutexTable} (separate : futexes.Separate)
    (notWait : args.command ≠ futexWait)
    (different : args.uaddr2 ≠ args.uaddr) {wq : Nat}
    (found : futexes.table args.uaddr = some wq) :
    ∃ after,
      CallRuns word task args futexes .compared
        ((futexes.waitingOn args.uaddr).take (args.wakes (futexes.waitingOn args.uaddr).length))
        after
        (.returned
          (.ok
            (args.wakes (futexes.waitingOn args.uaddr).length +
              args.moves (futexes.waitingOn args.uaddr).length))) ∧
      FutexTable.Requeued args futexes after := by
  let got := futexes.setStrong wq (· + 1)
  have gotSeparate : got.Separate := separate.setStrong wq _
  let wq2 := (got.getOrInsert args.uaddr2).1
  let inserted := (got.getOrInsert args.uaddr2).2
  have insertedSeparate : inserted.Separate := gotSeparate.getOrInsert args.uaddr2
  have found1 : inserted.table args.uaddr = some wq :=
    FutexTable.table_getOrInsert_of_some _ _ found
  have found2 : inserted.table args.uaddr2 = some wq2 := FutexTable.table_getOrInsert_self _
  have waitingInserted : ∀ addr, inserted.waitingOn addr = futexes.waitingOn addr := by
    intro addr
    rw [FutexTable.waitingOn_getOrInsert, FutexTable.waitingOn_setStrong]
  have differentQueues : wq ≠ wq2 := insertedSeparate.queue_ne found1 found2 (Ne.symm different)
  have tasks : inserted.tasksOf wq = futexes.waitingOn args.uaddr := by
    rw [← FutexTable.waitingOn_of_some found1, waitingInserted]
  obtain ⟨notified, wakes, notifiedTable, notifiedLength, left, othersLeft⟩ :=
    @callRuns_notifying word task args inserted wq (some wq2) args.value.toNat 0
  rw [tasks, Nat.zero_add] at wakes
  rw [tasks] at left
  obtain ⟨moved, finishes, movedTable, sourceTasks, targetTasks, othersMoved⟩ :=
    @futexFinish_requeues args notified (futexes.waitingOn args.uaddr) wq wq2 differentQueues
      (by
        rw [notifiedLength]
        exact insertedSeparate.known _ _ found1)
      (by
        rw [notifiedLength]
        exact insertedSeparate.known _ _ found2)
      left
  have sameTable : moved.table = inserted.table := movedTable.trans notifiedTable
  obtain ⟨after, drops, sameWaiting⟩ :=
    @callRuns_dropping word task args moved [⟨args.uaddr, wq, false⟩, ⟨args.uaddr2, wq2, false⟩]
      (.ok
        (args.wakes (futexes.waitingOn args.uaddr).length +
          args.moves (futexes.waitingOn args.uaddr).length))
      (by
        intro guard member
        rw [sameTable]
        rw [List.mem_cons, List.mem_singleton] at member
        rcases member with rfl | rfl
        · exact ⟨found1, rfl⟩
        · exact ⟨found2, rfl⟩)
      (by simpa using Ne.symm different)
  have lookUp :
      futexStep word futexes task args .compared = some (.goto got (.found (some wq))) := by
    simp only [futexStep, futexLookUp, if_neg notWait, FutexTable.get, found, Option.map_some]
    rfl
  have lookUpTarget :
      futexStep word got task args (.found (some wq)) =
        some ⟨inserted, [args.uaddr2], none, .notifying wq (some wq2) args.value.toNat 0⟩ := rfl
  have finish :
      futexStep word notified task args
          (.notified wq (some wq2) (args.wakes (futexes.waitingOn args.uaddr).length)) =
        some (futexFinish notified args wq (some wq2)
          (args.wakes (futexes.waitingOn args.uaddr).length)) := rfl
  rw [finishes] at finish
  refine ⟨after, ?_, ?_⟩
  · have runs := (wakes.trans (CallRuns.goto finish drops))
    rw [List.append_nil, List.take_eq_take_min] at runs
    exact CallRuns.goto lookUp (.step lookUpTarget runs)
  · rw [othersLeft wq2 (Ne.symm differentQueues)] at targetTasks
    have requeued : FutexTable.Requeued args futexes moved := by
      refine .of_queues insertedSeparate waitingInserted found1 found2 sameTable
          sourceTasks targetTasks ?_
      intro queue notFirst notSecond
      rw [othersMoved queue notFirst notSecond, othersLeft queue notFirst]
    exact requeued.congr sameWaiting

theorem callRuns_requeue_of_none {futexes : FutexTable} (notWait : args.command ≠ futexWait)
    (missing : futexes.table args.uaddr = none) :
    ∃ after, CallRuns word task args futexes .compared [] after (.returned (.ok 0)) ∧
      ∀ addr, after.waitingOn addr = futexes.waitingOn addr := by
  have lookUp :
      futexStep word futexes task args .compared = some (.goto futexes (.found none)) := by
    simp only [futexStep, futexLookUp, if_neg notWait, FutexTable.get, missing, Option.map_none]
  obtain ⟨after, drops, sameWaiting⟩ :=
    @callRuns_dropping word task args (futexes.getOrInsert args.uaddr2).2
      [⟨args.uaddr2, (futexes.getOrInsert args.uaddr2).1, false⟩] (.ok 0)
      (by
        intro guard member
        obtain rfl := List.mem_singleton.mp member
        exact ⟨FutexTable.table_getOrInsert_self _, rfl⟩)
      (by simp)
  have lookUpTarget :
      futexStep word futexes task args (.found none) =
        some
          ⟨(futexes.getOrInsert args.uaddr2).2, [args.uaddr2], none,
            .dropping [⟨args.uaddr2, (futexes.getOrInsert args.uaddr2).1, false⟩] (.ok 0)⟩ := rfl
  refine ⟨after, .goto lookUp (.step lookUpTarget drops), ?_⟩
  intro addr
  rw [sameWaiting, FutexTable.waitingOn_getOrInsert]

theorem callRuns_requeue {futexes : FutexTable} (separate : futexes.Separate)
    (notWait : args.command ≠ futexWait)
    (different : args.uaddr2 ≠ args.uaddr) :
    ∃ after,
      CallRuns word task args futexes .compared
        ((futexes.waitingOn args.uaddr).take (args.wakes (futexes.waitingOn args.uaddr).length))
        after
        (.returned
          (.ok
            (args.wakes (futexes.waitingOn args.uaddr).length +
              args.moves (futexes.waitingOn args.uaddr).length))) ∧
      FutexTable.Requeued args futexes after := by
  cases found : futexes.table args.uaddr with
  | some wq => exact callRuns_requeue_of_some separate notWait different found
  | none =>
      obtain ⟨after, runs, sameWaiting⟩ :=
        @callRuns_requeue_of_none word task args futexes notWait found
      have nobody := FutexTable.waitingOn_of_none found
      have noWakes : args.wakes 0 = 0 := Nat.min_zero _
      have noMoves : args.moves 0 = 0 := by
        rw [FutexArgs.moves, Nat.zero_sub, Nat.min_zero]
      rw [nobody, List.length_nil, noWakes, noMoves]
      refine ⟨after, runs, ?_, ?_, fun addr _ _ => sameWaiting addr⟩
      · rw [sameWaiting, nobody, List.drop_nil]
      · rw [sameWaiting, nobody, List.drop_nil, List.take_nil, List.append_nil]

end Requeueing

/-! ## Calls of `sys_futex` -/

def SysFutexState.RunsCall (state : SysFutexState) (args : FutexArgs)
    (result : LinuxResult Nat) (after : SysFutexState) : Prop :=
  (∃ started, sysFutexNext state (.sysFutex args) = some started ∧
    sysFutexMachine.Repeats (.step state.calls.length) started after) ∧
  after.calls[state.calls.length]? = some ⟨args, .returned result⟩

def SysFutexState.Woken (before after : SysFutexState) (woken : List Nat) :
    Prop :=
  ∀ other, other ≠ before.calls.length →
    after.calls[other]? = (before.calls[other]?).map fun call =>
        if other ∈ woken then call.woken else call

theorem SysFutexState.exists_runsCall {state : SysFutexState} {args : FutexArgs} {woken : List Nat}
    {futexes : FutexTable} {result : LinuxResult Nat}
    (runs :
      CallRuns state.word state.calls.length args state.futexes .entered
        woken futexes (.returned result)) :
    ∃ after, state.RunsCall args result after ∧ after.futexes = futexes ∧
      state.Woken after woken := by
  let started : SysFutexState := { state with calls := state.calls ++ [⟨args, .entered⟩] }
  have isLast : started.calls[state.calls.length]? = some ⟨args, .entered⟩ :=
    List.getElem?_concat_length
  obtain ⟨after, repeated, sameFutexes, returned, others⟩ :=
    @exists_repeats_of_callRuns _ _ _ _ _ _ _ _ runs started rfl rfl isLast
  refine ⟨after, ⟨⟨started, rfl, repeated⟩, returned⟩, sameFutexes, ?_⟩
  intro other different
  have unchanged : started.calls[other]? = state.calls[other]? := by
    rcases Nat.lt_or_gt_of_ne different with less | more
    · exact List.getElem?_append_left less
    · have beyond : state.calls.length + 1 ≤ other := more
      rw [List.getElem?_eq_none (Nat.le_of_lt more), List.getElem?_eq_none]
      rw [List.length_append, List.length_singleton]
      exact beyond
  rw [others other different, unchanged]

theorem SysFutexState.separate_of_reachable
    {state : SysFutexState} (reached : sysFutexMachine.Reachable state) :
    state.futexes.Separate := by
  have holds := GuardInvariant.of_reachable (SysFutexInvariant.of_reachable reached).guarded
  exact ⟨holds.known, holds.single⟩

/-- A requeueing wakes the first waiting tasks, moves the next ones in order
to the end of the second address, keeps the rest and returns how many it woke
and moved; a `FUTEX_CMP_REQUEUE` that finds another word changes nothing. -/
theorem futex_requeue_conserves_waiters {state : SysFutexState} (separate : state.futexes.Separate)
    {args : FutexArgs} (different : args.uaddr2 ≠ args.uaddr) :
    (args.command = futexRequeue ∨
        args.command = futexCmpRequeue ∧ args.uaddrAccess = .ok () ∧
          state.word args.uaddr = args.value3 →
      ∃ after,
        state.RunsCall args
          (.ok
            (args.wakes (state.futexes.waitingOn args.uaddr).length +
              args.moves (state.futexes.waitingOn args.uaddr).length))
          after ∧
        FutexTable.Requeued args state.futexes after.futexes ∧
        state.Woken after
          ((state.futexes.waitingOn args.uaddr).take
            (args.wakes (state.futexes.waitingOn args.uaddr).length))) ∧
    (args.command = futexCmpRequeue ∧ args.uaddrAccess = .ok () ∧
        state.word args.uaddr ≠ args.value3 →
      ∃ after, state.RunsCall args (.error .EAGAIN) after ∧
        after.futexes = state.futexes ∧ state.Woken after []) := by
  constructor
  · intro enabled
    have notWait : args.command ≠ futexWait := by
      rcases enabled with isRequeue | ⟨isCmp, -⟩
      · rw [isRequeue]
        decide
      · rw [isCmp]
        decide
    have enters :
        futexStep state.word state.futexes state.calls.length args .entered =
          some (.goto state.futexes .compared) := by
      rcases enabled with isRequeue | ⟨isCmp, readable, equal⟩
      · simp [futexStep, futexEnter, isRequeue, futexRequeue, futexWait, futexWake]
      · simp [futexStep, futexEnter, isCmp, futexRequeue, futexWait,
          futexWake, futexCmpRequeue, compareWord, readable, equal,
          afterCompare]
    obtain ⟨futexes, runs, requeued⟩ := callRuns_requeue separate notWait different
    obtain ⟨after, ran, rfl, woken⟩ := SysFutexState.exists_runsCall (.goto enters runs)
    exact ⟨after, ran, requeued, woken⟩
  · rintro ⟨isCmp, readable, changed⟩
    have enters :
        futexStep state.word state.futexes state.calls.length args .entered =
          some (.goto state.futexes (.returned (.error .EAGAIN))) := by
      simp [futexStep, futexEnter, isCmp, futexRequeue, futexWait,
        futexWake, futexCmpRequeue, compareWord, readable, changed,
        afterCompare]
    exact SysFutexState.exists_runsCall (.goto enters (.refl _ _))

/-- A `FUTEX_WAIT` at address 64, up to its sleep. -/
def sleepAt64 (index : Nat) : List SysFutexAction :=
  [.sysFutex (plainArgs futexWait 0), .step index, .step index, .step index]

/-- Of three waiting tasks, one is woken, one is moved and one stays. -/
theorem futex_requeue_conserves_waiters_three :
    ∃ state after, sysFutexMachine.Reachable state ∧ state.futexes.waitingOn 64 = [0, 1, 2] ∧
      state.RunsCall { plainArgs futexRequeue 1 with timeout := 1 } (.ok 2) after ∧
      after.futexes.waitingOn 64 = [2] ∧
      after.futexes.waitingOn 128 = [1] := by
  obtain ⟨state, reached, observed⟩ :=
    @Machine.exists_reachable_of_exec _ _ sysFutexMachine noFutexCalls
      (sleepAt64 0 ++ sleepAt64 1 ++ sleepAt64 2)
      (fun state => decide
        (state.futexes.waitingOn 64 = [0, 1, 2] ∧ state.futexes.waitingOn 128 = []))
      ⟨rfl, rfl, rfl⟩ (by decide +kernel)
  obtain ⟨waiting, nobody⟩ := of_decide_eq_true observed
  obtain ⟨requeues, -⟩ :=
    @futex_requeue_conserves_waiters state (SysFutexState.separate_of_reachable reached)
      { plainArgs futexRequeue 1 with timeout := 1 } (by decide)
  obtain ⟨after, ran, requeued, -⟩ := requeues (Or.inl (by decide))
  have source := requeued.source
  have target := requeued.target
  simp only [plainArgs] at ran source target
  rw [waiting] at ran source target
  rw [nobody] at target
  exact ⟨state, after, reached, waiting, ran, source, target⟩

end Vegar.Task

import Vegar.File.Vectored

/-!
# Failures in the middle of a vectored transfer

An element of the array can fail because its buffer is refused, because the
descriptor is gone, or in the transfer itself.  `sys_readv` and `sys_writev`
return the error even if earlier elements were transferred, and the number of
bytes moved so far is lost.
-/

namespace Vegar.File

open Vegar.Lib Vegar.Mm

def FailsClean {σ : Type} (call : IoState σ → Except (Fault LinuxError) Nat × IoState σ)
    (state : IoState σ) : Prop :=
  ∀ fault after, call state = (.error fault, after) → after.moved = state.moved

def AllEmpty (memory : UserMemory) (count iov : Nat) : Prop :=
  ∀ index < count, memory.word (iov + 16 * index + 8) = 0

theorem allEmpty_succ_iff (memory : UserMemory) (count iov : Nat) :
    AllEmpty memory (count + 1) iov ↔
      memory.word (iov + 8) = 0 ∧ AllEmpty memory count (iov + 16) := by
  have shift (index : Nat) : iov + 16 * (index + 1) + 8 = iov + 16 + 16 * index + 8 := by
    omega
  constructor
  · intro empty
    refine ⟨empty 0 (Nat.zero_lt_succ _), ?_⟩
    intro index inside
    rw [← shift]
    exact empty (index + 1) (Nat.succ_lt_succ inside)
  · rintro ⟨first, others⟩ index inside
    cases index with
    | zero => exact first
    | succ index =>
        rw [shift]
        exact others index (Nat.lt_of_succ_lt_succ inside)

section Passing

variable {σ : Type} (file : IoFile σ) (transfer : Transfer σ)

def passed : (count iov ret : Nat) → IoState σ → Option (Nat × IoState σ)
  | 0, _, ret, state => some (ret, state)
  | count + 1, iov, ret, state =>
      match element file transfer iov ret state with
      | .next ret state => passed count (iov + 16) ret state
      | .stop _ _ => none

def FailsAtStart (iov iocnt : Nat) (state : IoState σ) : Prop := iocnt ≤ 1024 →
  (∃ slice, state.memory.getElements transfer.accessFlags iovecElem iov iocnt = .ok slice) →
  ∀ index < iocnt, ∀ ret reached fault after,
    passed file transfer index iov 0 state = some (ret, reached) →
    element file transfer (iov + 16 * index) ret reached = .stop (.error fault) after →
      AllEmpty state.memory index iov

def FailsIn (count iov ret : Nat) (state : IoState σ)
    (fault : Fault LinuxError) (after : IoState σ) : Prop :=
  ∃ index < count, ∃ reachedRet reached,
    passed file transfer index iov ret state = some (reachedRet, reached) ∧
      element file transfer (iov + 16 * index) reachedRet reached = .stop (.error fault) after

variable {file transfer} {count iov ret : Nat} {state after : IoState σ} {fault : Fault LinuxError}

theorem add_sixteen_mul_succ (start index : Nat) :
    start + 16 * (index + 1) = start + 16 + 16 * index := by
  omega

theorem failsIn_succ_of_next {next : Nat} {middle : IoState σ}
    (turned : element file transfer iov ret state = .next next middle) :
    FailsIn file transfer (count + 1) iov ret state fault after ↔
      FailsIn file transfer count (iov + 16) next middle fault after := by
  constructor
  · rintro ⟨index, inside, reachedRet, reached, passes, fails⟩
    cases index with
    | zero =>
        obtain ⟨rfl, rfl⟩ := Prod.mk.inj (Option.some.inj passes)
        rw [Nat.mul_zero, Nat.add_zero, turned] at fails
        cases fails
    | succ index =>
        rw [passed, turned] at passes
        rw [add_sixteen_mul_succ] at fails
        exact ⟨index, Nat.lt_of_succ_lt_succ inside, reachedRet, reached, passes, fails⟩
  · rintro ⟨index, inside, reachedRet, reached, passes, fails⟩
    refine ⟨index + 1, Nat.succ_lt_succ inside, reachedRet, reached, ?_, ?_⟩
    · rw [passed, turned]
      exact passes
    · rw [add_sixteen_mul_succ]
      exact fails

theorem failsIn_succ_of_stop {result : Except (Fault LinuxError) Nat} {stopped : IoState σ}
    (turned : element file transfer iov ret state = .stop result stopped) :
    FailsIn file transfer (count + 1) iov ret state fault after ↔
      (result, stopped) = (.error fault, after) := by
  constructor
  · rintro ⟨index, inside, reachedRet, reached, passes, fails⟩
    cases index with
    | zero =>
        obtain ⟨rfl, rfl⟩ := Prod.mk.inj (Option.some.inj passes)
        rw [Nat.mul_zero, Nat.add_zero, turned] at fails
        obtain ⟨rfl, rfl⟩ := Turn.stop.inj fails
        rfl
    | succ index =>
        rw [passed, turned] at passes
        cases passes
  · intro same
    obtain ⟨rfl, rfl⟩ := Prod.mk.inj same
    exact ⟨0, Nat.zero_lt_succ _, ret, state, rfl, turned⟩

theorem elements_error_iff :
    elements file transfer count iov ret state = (.error fault, after) ↔
      FailsIn file transfer count iov ret state fault after := by
  induction count generalizing iov ret state with
  | zero =>
      constructor
      · intro impossible
        cases (Prod.mk.inj impossible).1
      · rintro ⟨index, inside, -⟩
        omega
  | succ count ih =>
      rw [elements]
      cases turned : element file transfer iov ret state with
      | next next middle =>
          rw [failsIn_succ_of_next turned]
          exact ih
      | stop result stopped =>
          rw [failsIn_succ_of_stop turned]

variable {iov : Nat} {state : IoState σ}

theorem passed_cases {count ret reachedRet : Nat} {reached : IoState σ}
    (passes : passed file transfer count iov ret state = some (reachedRet, reached)) :
    (AllEmpty state.memory count iov ∧ reachedRet = ret ∧ reached = state) ∨
      (¬ AllEmpty state.memory count iov ∧ state.moved.length < reached.moved.length) := by
  induction count generalizing iov ret state with
  | zero =>
      obtain ⟨isRet, isState⟩ := Prod.mk.inj (Option.some.inj passes)
      exact Or.inl ⟨nofun, isRet.symm, isState.symm⟩
  | succ count ih =>
      rw [allEmpty_succ_iff]
      rw [passed] at passes
      have does := @element_does σ file transfer iov ret state
      generalize element file transfer iov ret state = turn at does passes
      cases does with
      | skipped empty =>
          rw [and_iff_right empty]
          exact ih passes
      | failed nonempty kept => cases passes
      | @transferred size middle nonempty granted transferred =>
          have notEmpty :
              ¬ (state.memory.word (iov + 8) = 0 ∧ AllEmpty state.memory count (iov + 16)) :=
            fun empty => nonempty empty.1
          refine Or.inr ⟨notEmpty, ?_⟩
          obtain ⟨-, data, isSize, isMoved⟩ := transfer.moves _ _ _ _ _ transferred
          cases turned : finish ret (state.memory.word (iov + 8)) size middle with
          | stop result stopped =>
              rw [turned] at passes
              cases passes
          | next next goesOn =>
              obtain ⟨isFull, rfl, rfl⟩ := finish_eq_next turned
              rw [turned] at passes
              have positive : 0 < size := Nat.lt_of_lt_of_le (Nat.pos_of_ne_zero nonempty) isFull
              have longer : state.moved.length < goesOn.moved.length := by
                rw [isMoved, List.length_append, isSize]
                exact Nat.lt_add_of_pos_right positive
              rcases ih passes with ⟨-, -, rfl⟩ | ⟨-, evenLonger⟩
              · exact longer
              · exact Nat.lt_trans longer evenLonger

theorem element_error_moved {ret : Nat} {after : IoState σ} {fault : Fault LinuxError}
    (fails : element file transfer iov ret state = .stop (.error fault) after) :
    state.moved.length ≤ after.moved.length ∧ (ret = 0 → after.moved = state.moved) := by
  have does := @element_does σ file transfer iov ret state
  generalize element file transfer iov ret state = turn at does fails
  cases does with
  | skipped empty => cases fails
  | failed nonempty kept =>
      obtain ⟨-, rfl⟩ := Turn.stop.inj fails
      exact ⟨(congrArg List.length kept).ge, fun _ => kept⟩
  | @transferred size middle nonempty granted transferred =>
      obtain ⟨fits, data, isSize, isMoved⟩ := transfer.moves _ _ _ _ _ transferred
      obtain ⟨rfl, overflow | short⟩ := finish_eq_stop fails
      · constructor
        · rw [isMoved, List.length_append]
          exact Nat.le_add_right _ _
        · intro isZero
          have small : size ≤ isizeMax := fits.trans granted
          rw [isZero, Nat.zero_add] at overflow
          exact absurd small (Nat.not_le_of_lt overflow.1)
      · cases short.2

theorem elements_failsClean_iff {count : Nat} :
    FailsClean (elements file transfer count iov 0) state ↔
      ∀ index < count, ∀ ret reached fault after,
        passed file transfer index iov 0 state = some (ret, reached) →
        element file transfer (iov + 16 * index) ret reached = .stop (.error fault) after →
          AllEmpty state.memory index iov := by
  constructor
  · intro clean index inside ret reached fault after passes fails
    have same :=
      clean fault after (elements_error_iff.mpr ⟨index, inside, ret, reached, passes, fails⟩)
    rcases passed_cases passes with ⟨empty, -⟩ | ⟨-, longer⟩
    · exact empty
    · have notShorter := (element_error_moved fails).1
      rw [same] at notShorter
      exact absurd notShorter (Nat.not_le_of_lt longer)
  · intro atStart fault after failed
    obtain ⟨index, inside, ret, reached, passes, fails⟩ := elements_error_iff.mp failed
    have empty := atStart index inside ret reached fault after passes fails
    rcases passed_cases passes with ⟨-, rfl, rfl⟩ | ⟨nonempty, -⟩
    · exact (element_error_moved fails).2 rfl
    · exact (nonempty empty).elim

theorem sysVectored_failsClean_iff {iocnt : Nat} :
    FailsClean (sysVectored file transfer iov iocnt) state ↔
      FailsAtStart file transfer iov iocnt state := by
  by_cases tooMany : 1024 < iocnt
  · refine iff_of_true ?_ fun few => absurd few (Nat.not_le_of_lt tooMany)
    intro fault after failed
    rw [sysVectored, if_pos tooMany] at failed
    rw [← (Prod.mk.inj failed).2]
  · have few := Nat.le_of_not_lt tooMany
    cases granted : state.memory.getElements transfer.accessFlags iovecElem iov iocnt with
    | error refused =>
        refine iff_of_true ?_ ?_
        · intro fault after failed
          simp only [sysVectored, if_neg tooMany, granted] at failed
          rw [← (Prod.mk.inj failed).2]
        · rintro - ⟨slice, isSlice⟩
          rw [granted] at isSlice
          cases isSlice
    | ok slice =>
        have goesOn :
            sysVectored file transfer iov iocnt state =
              elements file transfer iocnt iov 0 state := by
          simp only [sysVectored, if_neg tooMany, granted]
        rw [FailsClean, goesOn]
        refine elements_failsClean_iff.trans ?_
        constructor
        · exact fun atStart _ _ => atStart
        · exact fun atStart => atStart few ⟨slice, granted⟩

end Passing

/-- A failing `sys_readv` or `sys_writev` has moved nothing exactly if no
element can fail behind a buffer that is not empty. -/
theorem vectored_fails_clean_iff {σ : Type}
    (file : IoFile σ) (state : IoState σ) (iov iocnt : Nat) :
    (FailsClean (sysReadv file iov iocnt) state ↔
      FailsAtStart file (reading file) iov iocnt state) ∧
    (FailsClean (sysWritev file iov iocnt) state ↔
      FailsAtStart file (writing file) iov iocnt state) :=
  ⟨sysVectored_failsClean_iff, sysVectored_failsClean_iff⟩

/-- A caller whose second buffer, at `0x9000`, may not be accessed. -/
def secondRefused : IoState (List UInt8) :=
  let caller := callerWith [(0x2000, 2), (0x9000, 2)] [1, 2, 3, 4]
  { caller with
    memory :=
      { caller.memory with
        check := fun start _ _ =>
          if start = 0x9000 then .error (.err .EFAULT) else .ok () } }

/-- Two bytes are taken from the stream, and the call returns `EFAULT`. -/
theorem sysReadv_loses_bytes :
    (sysReadv streamFile 0x1000 2 secondRefused).1 = .error (.err .EFAULT) ∧
      (sysReadv streamFile 0x1000 2 secondRefused).2.moved = [1, 2] ∧
      ¬ FailsClean (sysReadv streamFile 0x1000 2) secondRefused := by
  have failed : (sysReadv streamFile 0x1000 2 secondRefused).1 = .error (.err .EFAULT) := by
    decide +kernel
  have moved : (sysReadv streamFile 0x1000 2 secondRefused).2.moved = [1, 2] := by
    decide +kernel
  refine ⟨failed, moved, ?_⟩
  intro clean
  have same :
      (sysReadv streamFile 0x1000 2 secondRefused).2.moved =
        secondRefused.moved :=
    clean (.err .EFAULT) _ (Prod.ext failed rfl)
  rw [moved] at same
  cases same

end Vegar.File

import Vegar.Mm.UserMemory

/-!
# Vectored input and output

`sys_readv` and `sys_writev` of `api/src/imp/fs/io.rs` transfer one buffer
after the other until a transfer is short or something fails.  The array of
buffers is not copied, so data that is read into it changes those that come
next.
-/

namespace Vegar.File

open Vegar.Lib Vegar.Mm

/-! ## The calls -/

/-- `iovec`: the address and the length of a buffer. -/
def iovecElem : ElemType where
  size := 16
  align := 8
  alignPower := ElemType.pointer.alignPower
  alignDivides := ⟨2, rfl⟩
  sizeFits := by decide

/-- The file behind a descriptor: `get_file_like` finds it or fails, and `read`
and `write` transfer a part of what they are given. -/
structure IoFile (σ : Type) where
  getFileLike : σ → LinuxResult Unit
  read : σ → (len : Nat) → LinuxResult (List UInt8) × σ
  write : σ → List UInt8 → LinuxResult Nat × σ
  readFits : ∀ object len data after, read object len = (.ok data, after) → data.length ≤ len
  writeFits :
    ∀ object data count after, write object data = (.ok count, after) → count ≤ data.length

structure IoState (σ : Type) where
  memory : UserMemory
  object : σ
  moved : List UInt8

structure Transfer (σ : Type) where
  accessFlags : MappingFlags
  run : IoState σ → (base len : Nat) → LinuxResult Nat × IoState σ
  moves :
    ∀ state base len size after, run state base len = (.ok size, after) →
      size ≤ len ∧ ∃ data, data.length = size ∧ after.moved = state.moved ++ data
  fails :
    ∀ state base len error after,
      run state base len = (.error error, after) → after.moved = state.moved

inductive Turn (σ : Type) where
  | next (ret : Nat) (state : IoState σ)
  | stop (result : Except (Fault LinuxError) Nat) (state : IoState σ)

section Calls

variable {σ : Type} (file : IoFile σ)

def readBuffer (state : IoState σ) (base len : Nat) :
    LinuxResult Nat × IoState σ :=
  match file.read state.object len with
  | (.error error, object) => (.error error, { state with object := object })
  | (.ok data, object) =>
      (.ok data.length, ⟨state.memory.store base data, object, state.moved ++ data⟩)

def writeBuffer (state : IoState σ) (base len : Nat) :
    LinuxResult Nat × IoState σ :=
  let data := Memory.load state.memory.bytes base len
  match file.write state.object data with
  | (.error error, object) => (.error error, { state with object := object })
  | (.ok count, object) =>
      (.ok count, ⟨state.memory, object, state.moved ++ data.take count⟩)

variable {state after : IoState σ} {base len : Nat}

theorem readBuffer_ok {size : Nat} (ran : readBuffer file state base len = (.ok size, after)) :
    ∃ data, data.length = size ∧ data.length ≤ len ∧ after.memory = state.memory.store base data ∧
      after.moved = state.moved ++ data := by
  unfold readBuffer at ran
  split at ran
  · cases (Prod.mk.inj ran).1
  · next data object isRead =>
      obtain ⟨isSize, rfl⟩ := Prod.mk.inj ran
      have fits := file.readFits _ _ _ _ isRead
      exact ⟨data, Except.ok.inj isSize, fits, rfl, rfl⟩

theorem readBuffer_error {error : LinuxError}
    (ran : readBuffer file state base len = (.error error, after)) :
    after.moved = state.moved := by
  unfold readBuffer at ran
  split at ran
  · rw [← (Prod.mk.inj ran).2]
  · cases (Prod.mk.inj ran).1

theorem writeBuffer_ok {size : Nat} (ran : writeBuffer file state base len = (.ok size, after)) :
    size ≤ len ∧ after.memory = state.memory ∧
      after.moved =
        state.moved ++ (Memory.load state.memory.bytes base len).take
          size := by
  unfold writeBuffer at ran
  dsimp only at ran
  split at ran
  · cases (Prod.mk.inj ran).1
  · next count object isWritten =>
      obtain ⟨isSize, rfl⟩ := Prod.mk.inj ran
      have fits := file.writeFits _ _ _ _ isWritten
      rw [Memory.length_load] at fits
      rw [← Except.ok.inj isSize]
      exact ⟨fits, rfl, rfl⟩

theorem writeBuffer_error {error : LinuxError}
    (ran : writeBuffer file state base len = (.error error, after)) :
    after.moved = state.moved := by
  unfold writeBuffer at ran
  dsimp only at ran
  split at ran
  · rw [← (Prod.mk.inj ran).2]
  · cases (Prod.mk.inj ran).1

/-- `get_as_mut_slice` and `read`. -/
def reading : Transfer σ where
  accessFlags := UserPtr.accessFlags
  run := readBuffer file
  moves state base len size after ran := by
    obtain ⟨data, isSize, fits, -, moved⟩ := readBuffer_ok file ran
    exact ⟨isSize ▸ fits, data, isSize, moved⟩
  fails _ _ _ _ _ ran := readBuffer_error file ran

/-- `get_as_slice` and `write`. -/
def writing : Transfer σ where
  accessFlags := UserConstPtr.accessFlags
  run := writeBuffer file
  moves state base len size after ran := by
    obtain ⟨fits, -, moved⟩ := writeBuffer_ok file ran
    refine ⟨fits, _, ?_, moved⟩
    rw [List.length_take, Memory.length_load]
    exact Nat.min_eq_left fits
  fails _ _ _ _ _ ran := writeBuffer_error file ran

variable (transfer : Transfer σ)

/-- The end of the loop body: `ret += size as isize`, and `break` after a short
transfer. -/
def finish (ret len size : Nat) (state : IoState σ) : Turn σ :=
  if isizeMax < ret + size then .stop (.error .panicked) state
  else if size < len then .stop (.ok (ret + size)) state
  else .next (ret + size) state

/-- The body of the loop for the array element at `iov`. -/
def element (iov ret : Nat) (state : IoState σ) : Turn σ :=
  let base := state.memory.word iov
  let len := state.memory.word (iov + 8)
  if len = 0 then .next ret state
  else
    match state.memory.getElements transfer.accessFlags .byte base len with
    | .error fault => .stop (.error fault) state
    | .ok _ =>
        match file.getFileLike state.object with
        | .error error => .stop (.error (.err error)) state
        | .ok () =>
            match transfer.run state base len with
            | (.error error, after) => .stop (.error (.err error)) after
            | (.ok size, after) => finish ret len size after

def elements : (count iov ret : Nat) → IoState σ → Except (Fault LinuxError) Nat × IoState σ
  | 0, _, ret, state => (.ok ret, state)
  | count + 1, iov, ret, state =>
      match element file transfer iov ret state with
      | .next ret state => elements count (iov + 16) ret state
      | .stop result state => (result, state)

def sysVectored (iov iocnt : Nat) (state : IoState σ) : Except (Fault LinuxError) Nat × IoState σ :=
  if 1024 < iocnt then (.error (.err .EINVAL), state)
  else
    match state.memory.getElements transfer.accessFlags iovecElem iov iocnt
    with
    | .error fault => (.error fault, state)
    | .ok _ => elements file transfer iocnt iov 0 state

/-- `sys_readv`. -/
def sysReadv (iov iocnt : Nat) (state : IoState σ) : Except (Fault LinuxError) Nat × IoState σ :=
  sysVectored file (reading file) iov iocnt state

/-- `sys_writev`. -/
def sysWritev (iov iocnt : Nat) (state : IoState σ) : Except (Fault LinuxError) Nat × IoState σ :=
  sysVectored file (writing file) iov iocnt state

end Calls

/-! ## One element -/

section Element

variable {σ : Type} {file : IoFile σ} {transfer : Transfer σ}

inductive ElementDoes (transfer : Transfer σ) (iov ret : Nat) (state : IoState σ) : Turn σ → Prop
  | skipped (empty : state.memory.word (iov + 8) = 0) :
      ElementDoes transfer iov ret state (.next ret state)
  | failed {fault : Fault LinuxError} {after : IoState σ}
      (nonempty : state.memory.word (iov + 8) ≠ 0)
      (kept : after.moved = state.moved) :
      ElementDoes transfer iov ret state (.stop (.error fault) after)
  | transferred {size : Nat} {after : IoState σ} (nonempty : state.memory.word (iov + 8) ≠ 0)
      (granted : state.memory.word (iov + 8) ≤ isizeMax)
      (ran :
        transfer.run state (state.memory.word iov) (state.memory.word (iov + 8)) =
          (.ok size, after)) :
      ElementDoes transfer iov ret state (finish ret (state.memory.word (iov + 8)) size after)

theorem element_does (iov ret : Nat) (state : IoState σ) :
    ElementDoes transfer iov ret state (element file transfer iov ret state) := by
  unfold element
  dsimp only
  split
  · next empty => exact .skipped empty
  · next nonempty =>
      split
      · exact .failed nonempty rfl
      · next granted =>
          have fits := UserMemory.le_isizeMax_of_getElements granted
          rw [show ElemType.byte.size = 1 from rfl, Nat.mul_one] at fits
          split
          · exact .failed nonempty rfl
          · split
            · next ran =>
                exact .failed nonempty (transfer.fails _ _ _ _ _ ran)
            · next ran => exact .transferred nonempty fits ran

theorem finish_eq_next {ret len size next : Nat} {state after : IoState σ}
    (goesOn : finish ret len size state = .next next after) :
    len ≤ size ∧ next = ret + size ∧ after = state := by
  unfold finish at goesOn
  split at goesOn
  · cases goesOn
  · split at goesOn
    · cases goesOn
    · next full =>
        obtain ⟨isNext, isState⟩ := Turn.next.inj goesOn
        exact ⟨Nat.le_of_not_lt full, isNext.symm, isState.symm⟩

theorem finish_eq_stop {ret len size : Nat} {state after : IoState σ}
    {result : Except (Fault LinuxError) Nat}
    (stops : finish ret len size state = .stop result after) :
    after = state ∧
      (isizeMax < ret + size ∧ result = .error .panicked ∨
        size < len ∧ result = .ok (ret + size)) := by
  unfold finish at stops
  split at stops
  · next overflows =>
      obtain ⟨isResult, isState⟩ := Turn.stop.inj stops
      exact ⟨isState.symm, Or.inl ⟨overflows, isResult.symm⟩⟩
  · split at stops
    · next short =>
        obtain ⟨isResult, isState⟩ := Turn.stop.inj stops
        exact ⟨isState.symm, Or.inr ⟨short, isResult.symm⟩⟩
    · cases stops

/-- A pass of the loop in a call that succeeds: the buffer is empty, or it is
transferred whole and the loop goes on, or a part of it is the last that is
transferred. -/
theorem elements_succ_ok {count iov ret total : Nat} {state after : IoState σ}
    (ran : elements file transfer (count + 1) iov ret state = (.ok total, after)) :
    (state.memory.word (iov + 8) = 0 ∧
      elements file transfer count (iov + 16) ret state = (.ok total, after)) ∨
    state.memory.word (iov + 8) ≠ 0 ∧
      ((∃ middle,
        transfer.run state (state.memory.word iov) (state.memory.word (iov + 8)) =
          (.ok (state.memory.word (iov + 8)), middle) ∧
        elements file transfer count (iov + 16) (ret + state.memory.word (iov + 8)) middle =
          (.ok total, after)) ∨
      ∃ size,
        transfer.run state (state.memory.word iov) (state.memory.word (iov + 8)) =
          (.ok size, after) ∧
        total = ret + size) := by
  rw [elements] at ran
  have does := @element_does σ file transfer iov ret state
  generalize element file transfer iov ret state = turn at does ran
  cases does with
  | skipped empty => exact Or.inl ⟨empty, ran⟩
  | failed nonempty kept => cases (Prod.mk.inj ran).1
  | @transferred size middle nonempty granted transferred =>
      have fits := (transfer.moves _ _ _ _ _ transferred).1
      cases turned : finish ret (state.memory.word (iov + 8)) size middle with
      | next next goesOn =>
          obtain ⟨isFull, rfl, rfl⟩ := finish_eq_next turned
          rw [turned] at ran
          have whole := Nat.le_antisymm fits isFull
          rw [whole] at transferred ran
          exact Or.inr ⟨nonempty, Or.inl ⟨_, transferred, ran⟩⟩
      | stop result stopped =>
          rw [turned] at ran
          obtain ⟨rfl, rfl⟩ := Prod.mk.inj ran
          obtain ⟨rfl, overflow | short⟩ := finish_eq_stop turned
          · cases overflow.2
          · exact Or.inr ⟨nonempty, Or.inr ⟨size, transferred, Except.ok.inj short.2⟩⟩

end Element

/-! ## The buffers as one -/

def spans (memory : UserMemory) : (count iov : Nat) → List (Nat × Nat)
  | 0, _ => []
  | count + 1, iov =>
      (memory.word iov, memory.word (iov + 8)) :: spans memory count (iov + 16)

def spanCells (span : Nat × Nat) : List Nat := List.range' span.1 span.2

def cells (memory : UserMemory) (count iov : Nat) : List Nat :=
  (spans memory count iov).flatMap spanCells

def keepsList {σ : Type} (file : IoFile σ) : List (Nat × Nat) → (iov : Nat) → IoState σ → Bool
  | [], _, _ => true
  | (base, len) :: rest, iov, state =>
      if len = 0 then
        state.memory.word (iov + 8) == 0 && keepsList file rest (iov + 16) state
      else
        state.memory.word iov == base && state.memory.word (iov + 8) == len &&
          match readBuffer file state base len with
          | (.ok size, after) =>
              size < len || keepsList file rest (iov + 16) after
          | (.error _, _) => true

def LaterApart : List (Nat × Nat) → (iov : Nat) → Prop
  | [], _ => True
  | span :: rest, iov =>
      (∀ cell ∈ spanCells span, cell < iov + 16 ∨ iov + 16 + 16 * rest.length ≤ cell) ∧
        LaterApart rest (iov + 16)

theorem cells_succ (memory : UserMemory) (count iov : Nat) :
    cells memory (count + 1) iov =
      List.range' (memory.word iov) (memory.word (iov + 8)) ++ cells memory count (iov + 16) := by
  rw [cells, spans, List.flatMap_cons, cells]
  rfl

theorem length_spans (memory : UserMemory) (count iov : Nat) :
    (spans memory count iov).length = count := by
  induction count generalizing iov with
  | zero => rfl
  | succ count ih =>
      rw [spans, List.length_cons, ih]

theorem word_congr {left right : UserMemory} {addr : Nat}
    (same : ∀ asked, addr ≤ asked → asked < addr + 8 → left.bytes asked = right.bytes asked) :
    left.word addr = right.word addr := by
  rw [UserMemory.word, UserMemory.word, Memory.load_congr same]

theorem spans_congr {left right : UserMemory} {count iov : Nat}
    (same :
      ∀ asked, iov ≤ asked → asked < iov + 16 * count → left.bytes asked = right.bytes asked) :
    spans left count iov = spans right count iov := by
  induction count generalizing iov with
  | zero => rfl
  | succ count ih =>
      have sameBase : left.word iov = right.word iov :=
        word_congr fun asked above below => same asked above (by omega)
      have sameLen : left.word (iov + 8) = right.word (iov + 8) :=
        word_congr fun asked above below =>
          same asked (by omega) (by omega)
      have sameRest : spans left count (iov + 16) = spans right count (iov + 16) :=
        ih fun asked above below =>
          same asked (by omega) (by omega)
      rw [spans, spans, sameBase, sameLen, sameRest]

theorem nodup_cells {list : List (Nat × Nat)} (apart : list.Pairwise fun one other =>
        List.Disjoint (spanCells one) (spanCells other)) :
    (list.flatMap spanCells).Nodup := by
  rw [List.nodup_flatMap]
  exact ⟨fun _ _ => List.nodup_range', apart⟩

/-- A plain `read` of the concatenation: the bytes taken from the object fill
its front, in order, and nothing else changes. -/
def ReadPlain {σ : Type} (before after : IoState σ) (cells : List Nat) (count : Nat) : Prop :=
  ∃ data, data.length = count ∧ after.moved = before.moved ++ data ∧
    Memory.Filled before.memory.bytes after.memory.bytes cells data

/-- A plain `write` of the concatenation: the bytes handed to the object are
its front, and memory does not change. -/
def WritePlain {σ : Type} (before after : IoState σ) (cells : List Nat) (count : Nat) : Prop :=
  count ≤ cells.length ∧ after.memory = before.memory ∧
    after.moved = before.moved ++ (cells.map before.memory.bytes).take count

section Runs

variable {σ : Type} {file : IoFile σ} {before middle after : IoState σ}
  {base len count iov : Nat} {rest : List Nat}

theorem ReadPlain.cons {data : List UInt8} {moved : Nat} (isFull : data.length = len)
    (isMemory : middle.memory = before.memory.store base data)
    (isMoved : middle.moved = before.moved ++ data)
    (apart : ∀ cell ∈ List.range' base len, cell ∉ rest)
    (plain : ReadPlain middle after rest moved) :
    ReadPlain before after (List.range' base len ++ rest) (len + moved) := by
  obtain ⟨more, moreLength, moreMoved, filled⟩ := plain
  rw [isMemory] at filled
  refine ⟨data ++ more, ?_, ?_, ?_⟩
  · rw [List.length_append, isFull, moreLength]
  · rw [moreMoved, isMoved, List.append_assoc]
  · have first := @Memory.Filled.of_store _ data before.memory.bytes base len isFull.le
    refine first.trans ?_ filled apart
    rw [List.length_range', isFull]

theorem ReadPlain.of_short {data : List UInt8} (fits : data.length ≤ len)
    (isMemory : after.memory = before.memory.store base data)
    (isMoved : after.moved = before.moved ++ data) (rest : List Nat) :
    ReadPlain before after (List.range' base len ++ rest) data.length := by
  refine ⟨data, rfl, isMoved, ?_⟩
  rw [isMemory]
  refine (Memory.Filled.of_store before.memory.bytes fits).append ?_ rest
  rw [List.length_range']
  exact fits

theorem spans_store_of_apart {memory : UserMemory} {data : List UInt8} (fits : data.length ≤ len)
    (apart : ∀ cell ∈ List.range' base len, cell < iov ∨ iov + 16 * count ≤ cell) :
    spans (memory.store base data) count iov = spans memory count iov := by
  apply spans_congr
  intro asked above below
  apply Memory.store_of_outside
  by_contra inBuffer
  have isIn : asked ∈ List.range' base len := by
    rw [List.mem_range'_1]
    omega
  have away := apart asked isIn
  omega

variable {state : IoState σ}

theorem keepsList_of_laterApart {list : List (Nat × Nat)}
    (isList : spans state.memory list.length iov = list)
    (apart : LaterApart list iov) :
    keepsList file list iov state = true := by
  induction list generalizing iov state with
  | nil => rfl
  | cons span rest ih =>
      obtain ⟨base, len⟩ := span
      obtain ⟨bufferApart, restApart⟩ := apart
      rw [List.length_cons, spans] at isList
      obtain ⟨isSpan, isRest⟩ := List.cons.inj isList
      obtain ⟨isBase, isLen⟩ := Prod.mk.inj isSpan
      rw [keepsList]
      split
      · next empty =>
          rw [isLen, empty, ih isRest restApart]
          rfl
      · rw [isBase, isLen, beq_self_eq_true, beq_self_eq_true]
        split
        · next size after isRead =>
            obtain ⟨data, isSize, fits, isMemory, -⟩ := readBuffer_ok file isRead
            have stillRest : spans after.memory rest.length (iov + 16) = rest := by
              rw [isMemory, spans_store_of_apart fits bufferApart]
              exact isRest
            rw [ih stillRest restApart, Bool.or_true]
            rfl
        · rfl

/-- The loop of `sys_readv`, from any element on, for the list of buffers that
the array had when the call was made. -/
theorem elements_reading_plain {list : List (Nat × Nat)} {ret total : Nat}
    (nodup : (list.flatMap spanCells).Nodup)
    (keeps : keepsList file list iov state = true)
    (ran : elements file (reading file) list.length iov ret state = (.ok total, after)) :
    ∃ moved, total = ret + moved ∧ ReadPlain state after (list.flatMap spanCells) moved := by
  induction list generalizing iov ret state with
  | nil =>
      obtain ⟨isTotal, rfl⟩ := Prod.mk.inj ran
      refine ⟨0, (Except.ok.inj isTotal).symm, [], rfl, ?_, .nil _ _⟩
      rw [List.append_nil]
  | cons span rest ih =>
      obtain ⟨base, len⟩ := span
      rw [List.flatMap_cons] at nodup ⊢
      obtain ⟨-, restNodup, disjoint⟩ := List.nodup_append'.mp nodup
      have pass := elements_succ_ok ran
      rw [keepsList] at keeps
      by_cases empty : len = 0
      · rw [if_pos empty, Bool.and_eq_true, beq_iff_eq] at keeps
        obtain ⟨stillEmpty, restKeeps⟩ := keeps
        rcases pass with ⟨-, goesOn⟩ | ⟨nonempty, -⟩
        · rw [empty, spanCells, List.range'_zero, List.nil_append]
          exact ih restNodup restKeeps goesOn
        · exact absurd stillEmpty nonempty
      · rw [if_neg empty, Bool.and_eq_true, Bool.and_eq_true, beq_iff_eq, beq_iff_eq] at keeps
        obtain ⟨⟨isBase, isLen⟩, restKeeps⟩ := keeps
        rw [isBase, isLen] at pass
        rcases pass with
          ⟨isEmpty, -⟩ | ⟨-, ⟨middle, transferred, goesOn⟩ | ⟨size, transferred, isTotal⟩⟩
        · exact absurd isEmpty empty
        · obtain ⟨data, isFull, fits, isMemory, isMoved⟩ := readBuffer_ok file transferred
          have restKept : keepsList file rest (iov + 16) middle = true := by
            rw [show readBuffer file state base len = (.ok len, middle) from
              transferred] at restKeeps
            simpa using restKeeps
          obtain ⟨moved, isTotal, plain⟩ := ih restNodup restKept goesOn
          refine ⟨len + moved, by omega, ?_⟩
          exact plain.cons isFull isMemory isMoved fun cell isIn => disjoint isIn
        · obtain ⟨data, rfl, fits, isMemory, isMoved⟩ := readBuffer_ok file transferred
          exact ⟨data.length, isTotal, ReadPlain.of_short fits isMemory isMoved _⟩

theorem WritePlain.cons {moved : Nat} (isMemory : middle.memory = before.memory)
    (isMoved : middle.moved = before.moved ++ (Memory.load before.memory.bytes base len).take len)
    (plain : WritePlain middle after rest moved) :
    WritePlain before after (List.range' base len ++ rest) (len + moved) := by
  obtain ⟨inside, sameMemory, restMoved⟩ := plain
  rw [isMemory] at sameMemory restMoved
  have wholeLoad :
      (Memory.load before.memory.bytes base len).take len =
        Memory.load before.memory.bytes base len := by
    apply List.take_of_length_le
    rw [Memory.length_load]
  have bothParts :
      ((List.range' base len ++ rest).map before.memory.bytes).take (len + moved) =
        Memory.load before.memory.bytes base len ++ (rest.map before.memory.bytes).take moved := by
    have joined :
        (Memory.load before.memory.bytes base len ++ rest.map before.memory.bytes).take
            ((Memory.load before.memory.bytes base len).length + moved) =
          Memory.load before.memory.bytes base len ++ (rest.map before.memory.bytes).take moved :=
      List.take_length_add_append moved
    rw [Memory.length_load] at joined
    rw [List.map_append]
    exact joined
  refine ⟨?_, sameMemory, ?_⟩
  · rw [List.length_append, List.length_range']
    omega
  · rw [restMoved, isMoved, wholeLoad, bothParts, List.append_assoc]

theorem WritePlain.of_short {size : Nat} (fits : size ≤ len)
    (isMemory : after.memory = before.memory)
    (isMoved : after.moved = before.moved ++ (Memory.load before.memory.bytes base len).take size)
    (rest : List Nat) :
    WritePlain before after (List.range' base len ++ rest) size := by
  refine ⟨?_, isMemory, ?_⟩
  · rw [List.length_append, List.length_range']
    omega
  · rw [isMoved, List.map_append, List.take_append_of_le_length]
    · rfl
    · rw [List.length_map, List.length_range']
      exact fits

theorem elements_writing_plain {ret total : Nat}
    (ran : elements file (writing file) count iov ret state = (.ok total, after)) :
    ∃ moved, total = ret + moved ∧ WritePlain state after (cells state.memory count iov) moved := by
  induction count generalizing iov ret state with
  | zero =>
      obtain ⟨isTotal, rfl⟩ := Prod.mk.inj ran
      refine ⟨0, (Except.ok.inj isTotal).symm, Nat.zero_le _, rfl, ?_⟩
      rw [List.take_zero, List.append_nil]
  | succ count ih =>
      rw [cells_succ]
      have pass := elements_succ_ok ran
      generalize state.memory.word iov = base at pass ⊢
      generalize state.memory.word (iov + 8) = len at pass ⊢
      rcases pass with
        ⟨rfl, goesOn⟩ | ⟨-, ⟨middle, transferred, goesOn⟩ | ⟨size, transferred, isTotal⟩⟩
      · rw [List.range'_zero, List.nil_append]
        exact ih goesOn
      · obtain ⟨-, isMemory, isMoved⟩ := writeBuffer_ok file transferred
        obtain ⟨moved, isTotal, plain⟩ := ih goesOn
        rw [isMemory] at plain
        exact ⟨len + moved, by omega, plain.cons isMemory isMoved⟩
      · obtain ⟨fits, isMemory, isMoved⟩ := writeBuffer_ok file transferred
        exact ⟨size, isTotal, WritePlain.of_short fits isMemory isMoved _⟩

theorem elements_of_sysVectored_ok {transfer : Transfer σ} {total : Nat}
    (ran : sysVectored file transfer iov count state = (.ok total, after)) :
    elements file transfer count iov 0 state = (.ok total, after) := by
  unfold sysVectored at ran
  split at ran
  · cases (Prod.mk.inj ran).1
  · split at ran
    · cases (Prod.mk.inj ran).1
    · exact ran

end Runs

/-- `sys_readv` and `sys_writev` on pairwise disjoint buffers are plain reads
and writes of their concatenation, for `sys_readv` if the data read into one
buffer does not change the elements of the array that come next. -/
theorem vectored_plain {σ : Type} (file : IoFile σ) (state : IoState σ) (iov iocnt : Nat)
    (disjoint : (spans state.memory iocnt iov).Pairwise fun one other =>
        List.Disjoint (spanCells one) (spanCells other)) :
    (keepsList file (spans state.memory iocnt iov) iov state = true →
      ∀ total after, sysReadv file iov iocnt state = (.ok total, after) →
        ReadPlain state after (cells state.memory iocnt iov) total) ∧
    ∀ total after, sysWritev file iov iocnt state = (.ok total, after) →
      WritePlain state after (cells state.memory iocnt iov) total := by
  constructor
  · intro keeps total after ran
    have loop := elements_of_sysVectored_ok ran
    rw [← length_spans state.memory iocnt iov] at loop
    obtain ⟨moved, isTotal, plain⟩ := elements_reading_plain (nodup_cells disjoint) keeps loop
    rw [isTotal, Nat.zero_add]
    exact plain
  · intro total after ran
    obtain ⟨moved, isTotal, plain⟩ := elements_writing_plain (elements_of_sysVectored_ok ran)
    rw [isTotal, Nat.zero_add]
    exact plain

/-! ## A stream -/

def streamFile : IoFile (List UInt8) where
  getFileLike _ := .ok ()
  read stream len := (.ok (stream.take len), stream.drop len)
  write stream data := (.ok data.length, stream ++ data)
  readFits stream len data after isRead := by
    rw [← Except.ok.inj (Prod.mk.inj isRead).1]
    exact List.length_take_le _ _
  writeFits stream data count after isWritten := (Except.ok.inj (Prod.mk.inj isWritten).1).ge

/-- A caller whose memory may all be accessed, with an array of buffers at
`0x1000`. -/
def callerWith (buffers : List (Nat × Nat)) (stream : List UInt8) : IoState (List UInt8) where
  memory :=
    { bytes := Memory.store (fun _ => 0) 0x1000 (buffers.flatMap fun buffer =>
            toLeBytes 8 buffer.1 ++ toLeBytes 8 buffer.2)
      check := fun _ _ _ => .ok () }
  object := stream
  moved := []

def fourBuffers : List (Nat × Nat) := [(0x1000, 4), (0x2000, 3), (0x2800, 0), (0x3000, 4)]

def nineBytes : IoState (List UInt8) := callerWith fourBuffers [1, 2, 3, 4, 5, 6, 7, 8, 9]

theorem vectored_plain_nineBytes :
    (sysReadv streamFile 0x1000 4 nineBytes).1 = .ok 9 ∧
      ReadPlain nineBytes (sysReadv streamFile 0x1000 4 nineBytes).2
        (fourBuffers.flatMap spanCells) 9 ∧
      (sysWritev streamFile 0x1000 4 nineBytes).1 = .ok 11 ∧
      WritePlain nineBytes (sysWritev streamFile 0x1000 4 nineBytes).2
        (fourBuffers.flatMap spanCells) 11 := by
  have isRead : (sysReadv streamFile 0x1000 4 nineBytes).1 = .ok 9 := by
    decide +kernel
  have isWritten : (sysWritev streamFile 0x1000 4 nineBytes).1 = .ok 11 := by
    decide +kernel
  have buffers : spans nineBytes.memory 4 0x1000 = fourBuffers := by
    decide +kernel
  have isCells : cells nineBytes.memory 4 0x1000 = fourBuffers.flatMap spanCells := by
    rw [cells, buffers]
  have laterApart : LaterApart fourBuffers 0x1000 := by
    refine ⟨?_, ?_, ?_, ?_, trivial⟩ <;> decide
  have nodup : (fourBuffers.flatMap spanCells).Nodup := by
    decide
  have disjoint := (List.nodup_flatMap.mp nodup).2
  rw [← buffers] at disjoint
  have plain := vectored_plain streamFile nineBytes 0x1000 4 disjoint
  rw [isCells, buffers] at plain
  refine ⟨isRead, ?_, isWritten, plain.2 11 _ (Prod.ext isWritten rfl)⟩
  exact plain.1 (keepsList_of_laterApart buffers laterApart) 9 _ (Prod.ext isRead rfl)

/-- The first buffer is the second element of the array: the data moves the
second buffer from `0x2000` to `0x3000`. -/
def selfMoving : IoState (List UInt8) :=
  callerWith [(0x1010, 16), (0x2000, 4)] (toLeBytes 8 0x3000 ++ toLeBytes 8 4 ++ [9, 9, 9, 9])

/-- All bytes are read, and the second buffer is empty. -/
theorem sysReadv_moves_buffer : ((spans selfMoving.memory 2 0x1000).Pairwise fun one other =>
        List.Disjoint (spanCells one) (spanCells other)) ∧
      (sysReadv streamFile 0x1000 2 selfMoving).1 = .ok 20 ∧
      ¬ ReadPlain selfMoving (sysReadv streamFile 0x1000 2 selfMoving).2
        (cells selfMoving.memory 2 0x1000) 20 := by
  have buffers : spans selfMoving.memory 2 0x1000 = [(0x1010, 16), (0x2000, 4)] := by
    decide +kernel
  refine ⟨?_, by decide +kernel, ?_⟩
  · rw [buffers, List.pairwise_pair]
    intro cell inFirst inSecond
    rw [spanCells, List.mem_range'_1] at inFirst inSecond
    omega
  · rintro ⟨data, isLength, isMoved, filled⟩
    have isData : (sysReadv streamFile 0x1000 2 selfMoving).2.moved = data := by
      rw [isMoved]
      rfl
    have fills := filled.fills
    rw [isLength, ← isData] at fills
    revert fills
    decide +kernel

end Vegar.File

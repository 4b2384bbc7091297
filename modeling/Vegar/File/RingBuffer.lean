import Vegar.Lib.Circular

/-!
# The pipe ring buffer

`PipeRingBuffer` of `api/src/file/pipe.rs`.  The indices stay inside the
array and the status is `Normal` exactly when they differ, whatever the fill
level; the structure carries both facts.  The contents are the
`available_read` bytes from `head` on.
-/

namespace Vegar.File

open Vegar.Lib

/-- `RING_BUFFER_SIZE`. -/
def ringBufferSize : Nat := 256

instance : NeZero ringBufferSize := ⟨by decide⟩

inductive RingBufferStatus where
  | full
  | empty
  | normal
  deriving DecidableEq, Repr

structure PipeRingBuffer where
  arr : Vector UInt8 ringBufferSize
  head : Nat
  tail : Nat
  status : RingBufferStatus
  headInside : head < ringBufferSize
  tailInside : tail < ringBufferSize
  normalIff : status = .normal ↔ head ≠ tail

namespace PipeRingBuffer

def new : PipeRingBuffer where
  arr := Vector.replicate ringBufferSize 0
  head := 0
  tail := 0
  status := .empty
  headInside := by decide
  tailInside := by decide
  normalIff := by decide

/-- Store one byte at `tail` and advance it, whether or not there is room. -/
def writeByte (ring : PipeRingBuffer) (byte : UInt8) : PipeRingBuffer where
  arr := ring.arr.set ring.tail byte ring.tailInside
  head := ring.head
  tail := (ring.tail + 1) % ringBufferSize
  status :=
    if (ring.tail + 1) % ringBufferSize = ring.head then .full else .normal
  headInside := ring.headInside
  tailInside := Nat.mod_lt _ (NeZero.pos _)
  normalIff := by
    by_cases wrapped : (ring.tail + 1) % ringBufferSize = ring.head
    · simp [wrapped]
    · simp [wrapped, Ne.symm wrapped]

/-- Take the byte at `head` and advance it, whether or not there is one. -/
def readByte (ring : PipeRingBuffer) : UInt8 × PipeRingBuffer :=
  (ring.arr.get ⟨ring.head, ring.headInside⟩,
    { arr := ring.arr
      head := (ring.head + 1) % ringBufferSize
      tail := ring.tail
      status :=
        if (ring.head + 1) % ringBufferSize = ring.tail then .empty
        else .normal
      headInside := Nat.mod_lt _ (NeZero.pos _)
      tailInside := ring.tailInside
      normalIff := by
        by_cases wrapped : (ring.head + 1) % ringBufferSize = ring.tail
        · simp [wrapped]
        · simp [wrapped] })

def availableRead (ring : PipeRingBuffer) : Nat :=
  if ring.status = .empty then 0
  else if ring.tail > ring.head then ring.tail - ring.head
  else ring.tail + ringBufferSize - ring.head

def availableWrite (ring : PipeRingBuffer) : Nat :=
  if ring.status = .full then 0
  else ringBufferSize - ring.availableRead

def contents (ring : PipeRingBuffer) : List UInt8 :=
  Circular.window ring.arr ring.head ring.availableRead

@[simp]
theorem length_contents (ring : PipeRingBuffer) : ring.contents.length = ring.availableRead := by
  simp [contents]

theorem availableRead_le_size (ring : PipeRingBuffer) :
    ring.availableRead ≤ ringBufferSize := by
  have headInside := ring.headInside
  have tailInside := ring.tailInside
  unfold availableRead
  split
  · omega
  · split <;> omega

theorem head_eq_tail_of_status_ne_normal (ring : PipeRingBuffer) (extreme : ring.status ≠ .normal) :
    ring.head = ring.tail := by
  by_contra differ
  exact extreme (ring.normalIff.mpr differ)

theorem availableRead_add_availableWrite (ring : PipeRingBuffer) :
    ring.availableRead + ring.availableWrite = ringBufferSize := by
  have bound := ring.availableRead_le_size
  by_cases isFull : ring.status = .full
  · have sameIndex : ring.head = ring.tail :=
      ring.head_eq_tail_of_status_ne_normal (by simp [isFull])
    have occupied : ring.availableRead = ringBufferSize := by
      simp [availableRead, isFull, sameIndex]
    simp [availableWrite, isFull, occupied]
  · simp only [availableWrite, if_neg isFull]
    omega

theorem tail_eq_back (ring : PipeRingBuffer) :
    ring.tail = (ring.head + ring.availableRead) % ringBufferSize := by
  have headInside := ring.headInside
  have tailInside := ring.tailInside
  unfold availableRead
  by_cases isEmpty : ring.status = .empty
  · have sameIndex : ring.head = ring.tail :=
      ring.head_eq_tail_of_status_ne_normal (by simp [isEmpty])
    simp [isEmpty, sameIndex, Nat.mod_eq_of_lt tailInside]
  · rw [if_neg isEmpty]
    by_cases ahead : ring.tail > ring.head
    · rw [if_pos ahead, show ring.head + (ring.tail - ring.head) = ring.tail by omega,
        Nat.mod_eq_of_lt tailInside]
    · rw [if_neg ahead,
        show ring.head + (ring.tail + ringBufferSize - ring.head) =
          ring.tail + ringBufferSize by omega,
        Nat.add_mod_right, Nat.mod_eq_of_lt tailInside]

theorem availableRead_eq_of_back (ring : PipeRingBuffer) {level : Nat}
    (bound : level ≤ ringBufferSize)
    (back : ring.tail = (ring.head + level) % ringBufferSize)
    (emptyIff : ring.status = .empty ↔ level = 0) :
    ring.availableRead = level := by
  have headInside := ring.headInside
  unfold availableRead
  by_cases isEmpty : ring.status = .empty
  · rw [if_pos isEmpty, emptyIff.mp isEmpty]
  · have positive : level ≠ 0 := fun zero => isEmpty (emptyIff.mpr zero)
    rw [if_neg isEmpty]
    simp only [ringBufferSize] at *
    split <;> omega

theorem availableRead_writeByte (ring : PipeRingBuffer) (byte : UInt8)
    (room : 0 < ring.availableWrite) :
    (ring.writeByte byte).availableRead = ring.availableRead + 1 := by
  have total := ring.availableRead_add_availableWrite
  apply availableRead_eq_of_back
  · omega
  · have back := ring.tail_eq_back
    simp only [writeByte, ringBufferSize] at *
    omega
  · simp only [writeByte]
    split <;> simp

theorem availableRead_readByte (ring : PipeRingBuffer) (data : 0 < ring.availableRead) :
    ring.readByte.2.availableRead = ring.availableRead - 1 := by
  have bound := ring.availableRead_le_size
  have back := ring.tail_eq_back
  have headInside := ring.headInside
  apply availableRead_eq_of_back
  · omega
  · simp only [readByte, ringBufferSize] at *
    omega
  · by_cases wrapped : (ring.head + 1) % ringBufferSize = ring.tail
    · simp only [readByte, if_pos wrapped, true_iff]
      simp only [ringBufferSize] at *
      omega
    · simp only [readByte, if_neg wrapped, reduceCtorEq, false_iff]
      simp only [ringBufferSize] at *
      omega

theorem availableWrite_writeByte (ring : PipeRingBuffer) (byte : UInt8)
    (room : 0 < ring.availableWrite) :
    (ring.writeByte byte).availableWrite = ring.availableWrite - 1 := by
  have filled := ring.availableRead_writeByte byte room
  have before := ring.availableRead_add_availableWrite
  have after := (ring.writeByte byte).availableRead_add_availableWrite
  omega

theorem contents_writeByte (ring : PipeRingBuffer) (byte : UInt8) (room : 0 < ring.availableWrite) :
    (ring.writeByte byte).contents = ring.contents ++ [byte] := by
  have total := ring.availableRead_add_availableWrite
  unfold contents
  rw [availableRead_writeByte ring byte room]
  exact Circular.window_push ring.arr ring.head (by omega) ring.tailInside ring.tail_eq_back byte

theorem contents_readByte (ring : PipeRingBuffer) (data : 0 < ring.availableRead) :
    ring.contents = ring.readByte.1 :: ring.readByte.2.contents := by
  obtain ⟨level, isLevel⟩ := Nat.exists_eq_succ_of_ne_zero (Nat.pos_iff_ne_zero.mp data)
  have remaining := availableRead_readByte ring data
  unfold contents
  rw [remaining, isLevel, Nat.succ_sub_one, Circular.window_succ,
    Circular.cell_of_lt ring.arr ring.headInside]
  change _ :: _ = _ :: Circular.window ring.arr _ level
  rw [show ring.readByte.2.head = (ring.head + 1) % ringBufferSize from rfl, Circular.window_mod]
  rfl

end PipeRingBuffer

end Vegar.File

import Vegar.File.RingBuffer
import Vegar.Lib.Machine
import Vegar.Outcome
import Mathlib.Data.List.Basic

/-!
# Pipes as byte streams

`Pipe::read` and `Pipe::write` of `api/src/file/pipe.rs` as sequences of
lock-protected sections, which interleave with those of other calls and with
the drop of either end.  The state also records the bytes stored, with the
call that stored them, and the chunks handed to readers.
-/

namespace Vegar.File

open Vegar.Lib

/-! ## The loops over single bytes -/

/-- `for c in buf.iter_mut().take(read_size)`. -/
def readBytes : Nat → PipeRingBuffer → List UInt8 × PipeRingBuffer
  | 0, ring => ([], ring)
  | count + 1, ring =>
      let rest := readBytes count ring.readByte.2
      (ring.readByte.1 :: rest.1, rest.2)

/-- The local variables of a `write` call; `write_size` never passes the end
of the buffer. -/
structure WriteProgress where
  buf : List UInt8
  writeSize : Nat
  inside : writeSize ≤ buf.length

/-- What one lock-protected section of `write` leaves behind: the buffer, the
progress of the call, whether the loop ran into `write_size == total_len`,
and the bytes it stored. -/
structure WriteTurn where
  ring : PipeRingBuffer
  progress : WriteProgress
  finished : Bool
  stored : List UInt8

/-- `for _ in 0..loop_write` in `write`. -/
def writeBytes : Nat → PipeRingBuffer → WriteProgress → WriteTurn
  | 0, ring, progress => ⟨ring, progress, false, []⟩
  | count + 1, ring, progress =>
      if atEnd : progress.writeSize = progress.buf.length then
        ⟨ring, progress, true, []⟩
      else
        have more : progress.writeSize < progress.buf.length :=
          Nat.lt_of_le_of_ne progress.inside atEnd
        let byte := progress.buf[progress.writeSize]
        let rest :=
          writeBytes count (ring.writeByte byte) ⟨progress.buf, progress.writeSize + 1, more⟩
        { rest with stored := byte :: rest.stored }

theorem readBytes_spec :
    ∀ (count : Nat) (ring : PipeRingBuffer),
      count ≤ ring.availableRead →
        ring.contents = (readBytes count ring).1 ++ (readBytes count ring).2.contents ∧
          (readBytes count ring).1.length = count
  | 0, ring, _ => by
      simp [readBytes]
  | count + 1, ring, enough => by
      have data : 0 < ring.availableRead := by omega
      have remaining := PipeRingBuffer.availableRead_readByte ring data
      have rest := readBytes_spec count ring.readByte.2 (by omega)
      rw [PipeRingBuffer.contents_readByte ring data, rest.1]
      simp [readBytes, rest.2]

theorem writeBytes_spec :
    ∀ (count : Nat) (ring : PipeRingBuffer) (progress : WriteProgress),
      count ≤ ring.availableWrite →
        let turn := writeBytes count ring progress
        turn.ring.contents = ring.contents ++ turn.stored ∧ turn.progress.buf = progress.buf ∧
          progress.buf.take turn.progress.writeSize =
            progress.buf.take progress.writeSize ++ turn.stored ∧
          (turn.finished = true → turn.progress.writeSize = progress.buf.length)
  | 0, ring, progress, _ => by
      simp [writeBytes]
  | count + 1, ring, progress, enough => by
      intro turn
      by_cases atEnd : progress.writeSize = progress.buf.length
      · have isTurn : turn = ⟨ring, progress, true, []⟩ := by
          simp [turn, writeBytes, atEnd]
        simp [isTurn, atEnd]
      · have more : progress.writeSize < progress.buf.length :=
          Nat.lt_of_le_of_ne progress.inside atEnd
        let byte := progress.buf[progress.writeSize]
        let next : WriteProgress := ⟨progress.buf, progress.writeSize + 1, more⟩
        have room : 0 < ring.availableWrite := by omega
        have remaining := ring.availableWrite_writeByte byte room
        obtain ⟨contents, sameBuf, taken, finished⟩ :=
          writeBytes_spec count (ring.writeByte byte) next (by omega)
        have isTurn :
            turn =
              { writeBytes count (ring.writeByte byte) next with
                stored := byte :: (writeBytes count (ring.writeByte byte) next).stored } := by
          simp [turn, writeBytes, atEnd, next, byte]
        rw [isTurn]
        refine ⟨?_, sameBuf, ?_, finished⟩
        · simp only
          rw [contents, PipeRingBuffer.contents_writeByte ring byte room,
            List.append_assoc, List.singleton_append]
        · simp only
          rw [taken, List.take_succ_eq_append_getElem more,
            List.append_assoc, List.singleton_append]

/-! ## The sections of one call -/

/-- The checks of `Pipe::read` before its loop; `none` enters the loop. -/
def readEntry (readable : Bool) (len : Nat) : Option (LinuxResult (List UInt8)) :=
  if !readable then some (.error .EPERM)
  else if len = 0 then some (.ok [])
  else none

/-- One pass of the loop of `Pipe::read` with the lock held.  No bytes
(`none`) means that the call yields and tries again. -/
def readSection (ring : PipeRingBuffer) (closed : Bool) (len : Nat) :
    Option (List UInt8) × PipeRingBuffer :=
  let readSize := min ring.availableRead len
  if readSize = 0 then
    if closed then (some [], ring) else (none, ring)
  else
    let taken := readBytes readSize ring
    (some taken.1, taken.2)

/-- The checks of `Pipe::write` before its loop; `none` enters the loop. -/
def writeEntry (readable closed : Bool) (buf : List UInt8) : Option (LinuxResult Nat) :=
  if readable then some (.error .EPERM)
  else if closed then some (.error .EPIPE)
  else if buf.isEmpty then some (.ok 0)
  else none

/-- One pass of the loop of `Pipe::write` with the lock held.  `none` means
that the call goes on with the next pass. -/
def writeSection (ring : PipeRingBuffer) (closed : Bool) (progress : WriteProgress) :
    Option Nat × WriteTurn :=
  let loopWrite := ring.availableWrite
  if loopWrite = 0 then
    (if closed then some progress.writeSize else none, ⟨ring, progress, false, []⟩)
  else
    let turn := writeBytes loopWrite ring progress
    (if turn.finished then some turn.progress.writeSize else none, turn)

theorem readSection_bytes {ring after : PipeRingBuffer} {closed : Bool} {len : Nat}
    {bytes : List UInt8}
    (returned : readSection ring closed len = (some bytes, after))
    (nonempty : bytes ≠ []) :
    ring.contents = bytes ++ after.contents ∧ bytes.length ≤ len := by
  simp only [readSection] at returned
  split at returned
  · split at returned
    · simp only [Prod.mk.injEq, Option.some.injEq] at returned
      exact (nonempty returned.1.symm).elim
    · simp at returned
  · simp only [Prod.mk.injEq, Option.some.injEq] at returned
    obtain ⟨isBytes, isAfter⟩ := returned
    have spec := readBytes_spec (min ring.availableRead len) ring (Nat.min_le_left _ _)
    subst isBytes isAfter
    exact ⟨spec.1, by rw [spec.2]; exact Nat.min_le_right _ _⟩

/-- A read section that returns nothing has seen the other end closed and
changed nothing; if it was asked for bytes, the pipe was empty. -/
theorem readSection_eof {ring after : PipeRingBuffer} {closed : Bool} {len : Nat}
    (returned : readSection ring closed len = (some [], after)) :
    closed = true ∧ after = ring ∧ (len ≠ 0 → ring.contents = []) := by
  simp only [readSection] at returned
  split at returned
  · rename_i nothing
    split at returned
    · rename_i isClosed
      refine ⟨isClosed, (Prod.mk.inj returned).2.symm, ?_⟩
      intro wanted
      have noData : ring.availableRead = 0 := by omega
      simp [PipeRingBuffer.contents, noData]
    · simp at returned
  · rename_i something
    have spec := readBytes_spec (min ring.availableRead len) ring (Nat.min_le_left _ _)
    simp only [Prod.mk.injEq, Option.some.injEq] at returned
    have impossible := spec.2
    rw [returned.1] at impossible
    exact (something impossible.symm).elim

theorem readSection_again {ring after : PipeRingBuffer} {closed : Bool} {len : Nat}
    (yielded : readSection ring closed len = (none, after)) :
    after = ring := by
  simp only [readSection] at yielded
  split at yielded
  · split at yielded
    · simp at yielded
    · exact (Prod.mk.inj yielded).2.symm
  · simp at yielded

/-- A write section stores the next bytes of the caller's buffer behind the
contents, and returns, if at all, how much has been stored in total. -/
theorem writeSection_spec (ring : PipeRingBuffer) (closed : Bool) (progress : WriteProgress) :
    let outcome := writeSection ring closed progress
    outcome.2.ring.contents = ring.contents ++ outcome.2.stored ∧
      outcome.2.progress.buf = progress.buf ∧
      progress.buf.take outcome.2.progress.writeSize =
        progress.buf.take progress.writeSize ++ outcome.2.stored ∧
      ∀ size, outcome.1 = some size → size = outcome.2.progress.writeSize := by
  intro outcome
  by_cases noRoom : ring.availableWrite = 0
  · have isOutcome :
        outcome =
          (if closed then some progress.writeSize else none, ⟨ring, progress, false, []⟩) := by
      simp [outcome, writeSection, noRoom]
    rw [isOutcome]
    refine ⟨by simp, rfl, by simp, ?_⟩
    intro size returned
    cases closed with
    | false =>
        simp at returned
    | true =>
        simpa using returned.symm
  · let turn := writeBytes ring.availableWrite ring progress
    have isOutcome :
        outcome = (if turn.finished then some turn.progress.writeSize else none, turn) := by
      simp [outcome, writeSection, noRoom, turn]
    obtain ⟨contents, sameBuf, taken, _⟩ :=
      writeBytes_spec ring.availableWrite ring progress (le_refl _)
    rw [isOutcome]
    refine ⟨contents, sameBuf, taken, ?_⟩
    intro size returned
    simp only at returned ⊢
    split at returned
    · simpa using returned.symm
    · simp at returned

/-! ## Any number of calls -/

inductive PipeCall where
  | reading (len : Nat)
  | readReturned (len : Nat) (result : LinuxResult (List UInt8))
  | writing (progress : WriteProgress)
  | writeReturned (buf : List UInt8) (result : LinuxResult Nat)

namespace PipeCall

/-- The call is inside the loop of `read`. -/
def isReading : PipeCall → Bool
  | .reading _ => true
  | _ => false

/-- The call is inside the loop of `write`. -/
def isWriting : PipeCall → Bool
  | .writing _ => true
  | _ => false

end PipeCall

structure PipeState where
  ring : PipeRingBuffer
  readEnd : Bool
  writeEnd : Bool
  calls : List PipeCall
  appended : List (Nat × UInt8)
  deliveries : List (Nat × List UInt8)

namespace PipeState

/-- `Pipe::new`: both ends hold the empty buffer. -/
def new : PipeState where
  ring := .new
  readEnd := true
  writeEnd := true
  calls := []
  appended := []
  deliveries := []

/-- `Arc::strong_count` of the shared buffer: each undropped end holds one
reference. -/
def strongCount (state : PipeState) : Nat := state.readEnd.toNat + state.writeEnd.toNat

/-- `Pipe::closed`. -/
def closed (state : PipeState) : Bool := state.strongCount == 1

/-- The end with the given `readable` flag has not been dropped. -/
def endAlive (state : PipeState) (readable : Bool) : Bool :=
  if readable then state.readEnd else state.writeEnd

/-- Every byte ever stored, in the order of `write_byte`. -/
def appendedBytes (state : PipeState) : List UInt8 := state.appended.map Prod.snd

def appendedBy (state : PipeState) (call : Nat) : List UInt8 :=
  (state.appended.filter fun entry => entry.1 = call).map Prod.snd

def bytesOf (deliveries : List (Nat × List UInt8)) : List UInt8 := deliveries.flatMap Prod.snd

/-- Every byte ever handed to a reader, in the order of `read_byte`. -/
def deliveredBytes (state : PipeState) : List UInt8 := bytesOf state.deliveries

def start (state : PipeState) (call : PipeCall) : PipeState :=
  { state with calls := state.calls ++ [call] }

end PipeState

inductive PipeAction where
  /-- `Pipe::read` on one of the ends, with a buffer of `len` bytes. -/
  | read (readable : Bool) (len : Nat)
  /-- `Pipe::write` on one of the ends. -/
  | write (readable : Bool) (buf : List UInt8)
  /-- The next lock-protected section of a call. -/
  | lockSection (call : Nat)
  /-- The last reference to an end goes away. -/
  | drop (readable : Bool)

def pipeNext (state : PipeState) : PipeAction → Option PipeState
  | .read readable len =>
      if state.endAlive readable then
        match readEntry readable len with
        | some result => some (state.start (.readReturned len result))
        | none => some (state.start (.reading len))
      else none
  | .write readable buf =>
      if state.endAlive readable then
        match writeEntry readable state.closed buf with
        | some result => some (state.start (.writeReturned buf result))
        | none => some (state.start (.writing ⟨buf, 0, Nat.zero_le _⟩))
      else none
  | .lockSection call =>
      match state.calls[call]? with
      | some (.reading len) =>
          match readSection state.ring state.closed len with
          | (none, ring) => some { state with ring := ring }
          | (some bytes, ring) =>
              some { state with
                ring := ring
                calls := state.calls.set call (.readReturned len (.ok bytes))
                deliveries := state.deliveries ++ [(call, bytes)] }
      | some (.writing progress) =>
          let outcome := writeSection state.ring state.closed progress
          some { state with
            ring := outcome.2.ring
            calls := state.calls.set call <|
                match outcome.1 with
                | none => .writing outcome.2.progress
                | some size => .writeReturned progress.buf (.ok size)
            appended := state.appended ++ outcome.2.stored.map fun byte => (call, byte) }
      | _ => none
  | .drop true =>
      if state.readEnd && !state.calls.any PipeCall.isReading then
        some { state with readEnd := false }
      else none
  | .drop false =>
      if state.writeEnd && !state.calls.any PipeCall.isWriting then
        some { state with writeEnd := false }
      else none

/-- The pipe made by `Pipe::new` under every interleaving. -/
def pipeMachine : Machine PipeState PipeAction where
  start state := state = PipeState.new
  next := pipeNext

end Vegar.File

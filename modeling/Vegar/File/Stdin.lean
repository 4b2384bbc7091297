import Vegar.Lib.Machine
import Vegar.Lib.Roster
import Vegar.Lib.Source

/-!
# Standard input

`Stdin` of `api/src/file/stdio.rs`: all handles share one `BufReader` over
the console behind a lock, which `read_blocked` takes for each attempt.  The
console is any source of bytes, and the reader in front of it any that keeps
to the contract of `axio::BufReader`.
-/

namespace Vegar.File

open Vegar.Lib

universe u v

/-- What `console_read_bytes` makes of a byte: `b'\r'` is turned into
`b'\n'`. -/
def consoleByte (byte : UInt8) : UInt8 :=
  if byte = 13 then 10 else byte

theorem consoleByte_ne (byte : UInt8) : consoleByte byte ≠ 13 := by
  unfold consoleByte
  split
  · decide
  · next different => exact different

/-- `StdinRaw`, whose `read` asks the console again until the buffer is full
or nothing is there. -/
def stdinRaw {Console : Type u} (console : Source Console UInt8) :
    Source Console UInt8 :=
  console.drain consoleByte

/-- Where a call of `read_blocked` stands.  Its first attempt also returns if
the buffer it was given is empty. -/
inductive StdinCall where
  | reading (first : Bool) (len : Nat)
  | returned (len : Nat) (bytes : List UInt8)
  deriving DecidableEq

structure StdinState (Console : Type u) (Buffer : Type v) where
  buffer : Buffer
  console : Console
  calls : List StdinCall
  deliveries : List (Nat × List UInt8)

inductive StdinAction (Console : Type u) where
  /-- A call of `read_blocked` begins. -/
  | read (len : Nat)
  /-- The next attempt of a call, with the lock held. -/
  | attempt (call : Nat)
  /-- Input arrives, or time passes for the console. -/
  | elapse (later : Console)

section Machine

variable {Console : Type u} {Buffer : Type v} {console : Source Console UInt8}
  (reader : (stdinRaw console).Buffered Buffer)

def stdinNext (state : StdinState Console Buffer) :
    StdinAction Console → Option (StdinState Console Buffer)
  | .read len =>
      some { state with calls := state.calls ++ [.reading true len] }
  | .attempt call =>
      match state.calls[call]? with
      | some (.reading first len) =>
          let result := reader.read len state.buffer state.console
          if first ∧ len = 0 ∨ result.1 ≠ [] then
            some
              { buffer := result.2.1
                console := result.2.2
                calls := state.calls.set call (.returned len result.1)
                deliveries := state.deliveries ++ [(call, result.1)] }
          else
            some { state with
              buffer := result.2.1
              console := result.2.2
              calls := state.calls.set call (.reading false len) }
      | _ => none
  | .elapse later =>
      if console.taken later = console.taken state.console then
        some { state with console := later }
      else none

def stdinMachine : Machine (StdinState Console Buffer) (StdinAction Console) where
  start state := state.buffer = reader.new ∧ state.calls = [] ∧
      state.deliveries = [] ∧ console.taken state.console = []
  next := stdinNext reader

end Machine

namespace StdinState

variable {Console : Type u} {Buffer : Type v}

def delivered (state : StdinState Console Buffer) : List UInt8 := state.deliveries.flatMap Prod.snd

def deliveredTo (state : StdinState Console Buffer) (call : Nat) : List (Nat × List UInt8) :=
  state.deliveries.filter fun entry => entry.1 = call

end StdinState

/-! ## The invariant of every run -/

section Invariant

variable {Console : Type u} {Buffer : Type v} {console : Source Console UInt8}
  {reader : (stdinRaw console).Buffered Buffer}

def StdinCall.Sound (state : StdinState Console Buffer) (call : Nat) : StdinCall → Prop
  | .reading first len =>
      state.deliveredTo call = [] ∧ (first = false → len ≠ 0)
  | .returned len bytes =>
      bytes.length ≤ len ∧ (len ≠ 0 → bytes ≠ []) ∧ state.deliveredTo call = [(call, bytes)]

structure StdinSound (reader : (stdinRaw console).Buffered Buffer)
    (state : StdinState Console Buffer) : Prop where
  stream :
    (console.taken state.console).map consoleByte = state.delivered ++ reader.held state.buffer
  bounded : (reader.held state.buffer).length ≤ reader.capacity
  calls :
    ∀ (call : Nat) (current : StdinCall),
      state.calls[call]? = some current → current.Sound state call
  started : ∀ entry ∈ state.deliveries, entry.1 < state.calls.length

private theorem StdinCall.Sound.transfer
    {state target : StdinState Console Buffer} {call : Nat} {current : StdinCall}
    (sound : current.Sound state call)
    (same : target.deliveredTo call = state.deliveredTo call) :
    current.Sound target call := by
  cases current with
  | reading first len => exact ⟨same.trans sound.1, sound.2⟩
  | returned len bytes =>
      exact ⟨sound.1, sound.2.1, same.trans sound.2.2⟩

namespace StdinSound

variable {state target : StdinState Console Buffer}

theorem start (started : (stdinMachine reader).start state) :
    StdinSound reader state := by
  obtain ⟨nothing, noCalls, noDeliveries, untouched⟩ := started
  refine ⟨?_, ?_, ?_, ?_⟩
  · rw [untouched, nothing, reader.held_new, StdinState.delivered, noDeliveries]
    rfl
  · rw [nothing, reader.held_new]
    exact Nat.zero_le _
  · intro call current found
    rw [noCalls] at found
    cases found
  · rw [noDeliveries]
    simp

theorem deliveredTo_unstarted (sound : StdinSound reader state) {call : Nat}
    (unstarted : state.calls.length ≤ call) :
    state.deliveredTo call = [] := by
  simp only [StdinState.deliveredTo, List.filter_eq_nil_iff, decide_eq_true_eq]
  intro entry member isCall
  have := sound.started entry member
  omega

theorem read (sound : StdinSound reader state) (len : Nat) :
    StdinSound reader { state with calls := state.calls ++ [.reading true len] } where
  stream := sound.stream
  bounded := sound.bounded
  calls call current found := by
    rcases Roster.old_or_added found with old | ⟨atEnd, isNew⟩
    · exact (sound.calls call current old).transfer rfl
    · subst isNew
      refine ⟨sound.deliveredTo_unstarted (Nat.le_of_eq atEnd.symm), ?_⟩
      intro notFirst
      cases notFirst
  started entry member := by
    have := sound.started entry member
    simp only [List.length_append, List.length_singleton]
    omega

theorem hand (sound : StdinSound reader state)
    {call len : Nat} {first : Bool} {bytes : List UInt8} {buffer : Buffer}
    {later : Console}
    (isReading : state.calls[call]? = some (.reading first len))
    (stream :
      (console.taken later).map consoleByte = state.delivered ++ (bytes ++ reader.held buffer))
    (bounded : (reader.held buffer).length ≤ reader.capacity)
    (fits : bytes.length ≤ len) (some_ : len ≠ 0 → bytes ≠ []) :
    StdinSound reader
      { buffer := buffer
        console := later
        calls := state.calls.set call (.returned len bytes)
        deliveries := state.deliveries ++ [(call, bytes)] } where
  stream := by
    rw [stream, StdinState.delivered, StdinState.delivered]
    simp
  bounded := bounded
  calls other current found := by
    have inside := (List.getElem?_eq_some_iff.mp isReading).1
    rcases Roster.replaced_or_same found with ⟨isCall, isNew⟩ | ⟨different, old⟩
    · subst isCall isNew
      have nothingYet := (sound.calls other _ isReading).1
      refine ⟨fits, some_, ?_⟩
      simp only [StdinState.deliveredTo] at nothingYet ⊢
      rw [List.filter_append, nothingYet]
      simp
    · apply (sound.calls other current old).transfer
      simp [StdinState.deliveredTo, Ne.symm different]
  started entry member := by
    have inside := (List.getElem?_eq_some_iff.mp isReading).1
    rw [List.length_set]
    rcases List.mem_append.mp member with old | new
    · exact sound.started entry old
    · rw [List.mem_singleton.mp new]
      exact inside

theorem again (sound : StdinSound reader state)
    {call len : Nat} {first : Bool} {buffer : Buffer} {later : Console}
    (isReading : state.calls[call]? = some (.reading first len))
    (stream : (console.taken later).map consoleByte = state.delivered ++ reader.held buffer)
    (bounded : (reader.held buffer).length ≤ reader.capacity)
    (wanted : len ≠ 0) :
    StdinSound reader
      { state with
        buffer := buffer
        console := later
        calls := state.calls.set call (.reading false len) } where
  stream := stream
  bounded := bounded
  calls other current found := by
    rcases Roster.replaced_or_same found with ⟨isCall, isNew⟩ | ⟨-, old⟩
    · subst isCall isNew
      exact ⟨(sound.calls other _ isReading).1, fun _ => wanted⟩
    · exact (sound.calls other current old).transfer rfl
  started entry member := by
    rw [List.length_set]
    exact sound.started entry member

theorem stream_of_read (sound : StdinSound reader state) (len : Nat) :
    let result := reader.read len state.buffer state.console
    (console.taken result.2.2).map consoleByte =
      state.delivered ++ (result.1 ++ reader.held result.2.1) := by
  intro result
  obtain ⟨fresh, taken, conserved⟩ := reader.conserves len state.buffer state.console
  change (console.taken result.2.2).map consoleByte =
    (console.taken state.console).map consoleByte ++ fresh at taken
  rw [taken, sound.stream, List.append_assoc, conserved]

theorem attempt (sound : StdinSound reader state) {call : Nat}
    (stepped : stdinNext reader state (.attempt call) = some target) :
    StdinSound reader target := by
  simp only [stdinNext] at stepped
  split at stepped
  · next first len isReading =>
      have stream := sound.stream_of_read len
      have bounded := reader.bounded len state.buffer state.console sound.bounded
      have fits := reader.short len state.buffer state.console
      have inLoop := (sound.calls call _ isReading).2
      split at stepped
      · next returns =>
          obtain rfl := Option.some.inj stepped
          refine sound.hand isReading stream bounded fits ?_
          intro wanted
          rcases returns with ⟨-, nothingWanted⟩ | something
          · exact absurd nothingWanted wanted
          · exact something
      · next repeats =>
          obtain rfl := Option.some.inj stepped
          push Not at repeats
          obtain ⟨notEmpty, nothing⟩ := repeats
          have wanted : len ≠ 0 := by
            cases first with
            | true => exact notEmpty rfl
            | false => exact inLoop rfl
          simp only [nothing, List.nil_append] at stream
          exact sound.again isReading stream bounded wanted
  · cases stepped

theorem next (sound : StdinSound reader state) {action : StdinAction Console}
    (stepped : stdinNext reader state action = some target) :
    StdinSound reader target := by
  cases action with
  | read len =>
      obtain rfl := Option.some.inj stepped
      exact sound.read len
  | attempt call => exact sound.attempt stepped
  | elapse later =>
      obtain ⟨untouched, isTarget⟩ := Option.ite_none_right_eq_some.mp stepped
      obtain rfl := Option.some.inj isTarget
      refine ⟨?_, sound.bounded, ?_, sound.started⟩
      · rw [untouched]
        exact sound.stream
      · intro call current found
        exact (sound.calls call current found).transfer rfl

theorem of_reachable (reached : (stdinMachine reader).Reachable state) :
    StdinSound reader state := by
  refine Machine.Reachable.invariant ?_ ?_ reached
  · intro initial started
    exact start started
  · intro source action target _ sound stepped
    exact sound.next stepped

end StdinSound

theorem console_empty_of_repeats {state target : StdinState Console Buffer}
    (sound : StdinSound reader state)
    {call : Nat} {first : Bool} {len : Nat}
    (isReading : state.calls[call]? = some (.reading first len))
    (stepped : stdinNext reader state (.attempt call) = some target)
    (stillReading : target.calls[call]? = some (.reading false len)) :
    reader.held state.buffer = [] ∧
      ∃ asked, 0 < asked ∧ (console.read asked state.console).1 = [] := by
  have inside := (List.getElem?_eq_some_iff.mp isReading).1
  have inLoop := (sound.calls call _ isReading).2
  simp only [stdinNext, isReading] at stepped
  split at stepped
  · obtain rfl := Option.some.inj stepped
    rw [List.getElem?_set_self inside] at stillReading
    cases stillReading
  · next repeats =>
      push Not at repeats
      obtain ⟨notEmpty, nothing⟩ := repeats
      have wanted : 0 < len := by
        apply Nat.pos_of_ne_zero
        cases first with
        | true => exact notEmpty rfl
        | false => exact inLoop rfl
      obtain ⟨drained, asked, positive, raw⟩ :=
        reader.empty len state.buffer state.console wanted nothing
      exact ⟨drained, asked, positive, console.drain_eq_nil positive raw⟩

end Invariant

/-- Standard input is one stream shared by all its readers.  For every
console, every reader in front of it and every interleaving of attempts with
the arrival of input: the bytes the console handed over, with `\r` turned
into `\n`, are those handed to readers in the order of their attempts
followed by the buffered ones; every call that returned got one delivery of
at most as many bytes as it asked for, and no call that asked for bytes
returned none; no reader ever gets a `\r`; and an attempt is repeated only if
nothing was buffered and the console had nothing to give. -/
theorem stdin_is_one_stream {Console : Type u} {Buffer : Type v} {console : Source Console UInt8}
    {reader : (stdinRaw console).Buffered Buffer}
    {state : StdinState Console Buffer}
    (reached : (stdinMachine reader).Reachable state) :
    (console.taken state.console).map consoleByte = state.delivered ++ reader.held state.buffer ∧
      (reader.held state.buffer).length ≤ reader.capacity ∧
      (∀ (call len : Nat) (bytes : List UInt8),
        state.calls[call]? = some (.returned len bytes) →
          bytes.length ≤ len ∧ (len ≠ 0 → bytes ≠ []) ∧ state.deliveredTo call = [(call, bytes)]) ∧
      13 ∉ state.delivered ∧
      ∀ (call len : Nat) (first : Bool) (target : StdinState Console Buffer),
        state.calls[call]? = some (.reading first len) →
          stdinNext reader state (.attempt call) = some target →
            target.calls[call]? = some (.reading false len) →
              reader.held state.buffer = [] ∧
                ∃ asked, 0 < asked ∧ (console.read asked state.console).1 = [] := by
  have sound := StdinSound.of_reachable reached
  refine ⟨sound.stream, sound.bounded, ?_, ?_, ?_⟩
  · intro call len bytes returned
    exact sound.calls call _ returned
  · intro member
    have inMapped : 13 ∈ (console.taken state.console).map consoleByte := by
      rw [sound.stream]
      exact List.mem_append_left _ member
    obtain ⟨byte, -, isReturn⟩ := List.mem_map.mp inMapped
    exact consoleByte_ne byte isReturn
  · intro call len first target isReading stepped stillReading
    exact console_empty_of_repeats sound isReading stepped stillReading

def waitingInput : Source (List UInt8 × List UInt8) UInt8 where
  read count state := (state.2.take count, state.1 ++ state.2.take count, state.2.drop count)
  taken state := state.1
  short _ _ := List.length_take_le _ _
  handed _ _ := rfl

def refilling {State : Type u} (source : Source State UInt8) (capacity : Nat)
    (room : 0 < capacity) : source.Buffered (List UInt8) where
  new := []
  held := id
  capacity := capacity
  read count buffered state :=
    let filled :=
      if buffered = [] then source.read capacity state else (buffered, state)
    (filled.1.take count, filled.1.drop count, filled.2)
  held_new := rfl
  short _ _ _ := List.length_take_le _ _
  bounded count buffered state inside := by
    have fresh := source.short capacity state
    simp only [id_eq, List.length_drop] at *
    split
    · omega
    · exact (Nat.sub_le _ _).trans inside
  conserves count buffered state := by
    simp only [id_eq, List.take_append_drop]
    by_cases empty : buffered = []
    · simp only [if_pos empty]
      exact ⟨_, source.handed capacity state, by rw [empty, List.nil_append]⟩
    · simp only [if_neg empty]
      exact ⟨[], by simp⟩
  empty count buffered state wanted nothing := by
    simp only [List.take_eq_nil_iff] at nothing
    rcases nothing with noneWanted | noneFilled
    · omega
    · by_cases empty : buffered = []
      · rw [if_pos empty] at noneFilled
        exact ⟨empty, capacity, room, noneFilled⟩
      · rw [if_neg empty] at noneFilled
        exact absurd noneFilled empty

/-- One reader of two bytes behind a buffer of four, with a line waiting. -/
theorem stdin_is_one_stream_line :
    ∃ state : StdinState (List UInt8 × List UInt8) (List UInt8),
      (stdinMachine (refilling (stdinRaw waitingInput) 4 (by decide))).Reachable state ∧
        state.calls = [.returned 2 [104, 105]] ∧ state.buffer = [10] ∧
        (waitingInput.taken state.console).map consoleByte =
          state.delivered ++ state.buffer := by
  have started :
      (stdinMachine (refilling (stdinRaw waitingInput) 4 (by decide))).Reachable
        ⟨[], ([], [104, 105, 13]), [], []⟩ :=
    .start ⟨rfl, rfl, rfl, rfl⟩
  have begun := started.step (.read 2) rfl
  have returned := begun.step (.attempt 0) rfl
  exact ⟨_, returned, rfl, rfl, (stdin_is_one_stream returned).1⟩

end Vegar.File

import Vegar.File.Pipe

/-!
# The stream invariant of a pipe

What writers stored is what readers got followed by the contents of the
buffer, each write has stored a front part of its bytes, each returned read
has one delivery, and the end of the file is only reported once the write end
is gone and the buffer drained.
-/

namespace Vegar.File

open Vegar.Lib

inductive PipeStep (state : PipeState) : PipeState → Prop
  | readRefused (len : Nat) (result : LinuxResult (List UInt8)) :
      (∀ bytes, result = .ok bytes → bytes = [] ∧ len = 0) →
      PipeStep state (state.start (.readReturned len result))
  | readEntered (len : Nat) : state.readEnd = true → len ≠ 0 →
      PipeStep state (state.start (.reading len))
  | writeRefused (buf : List UInt8) (result : LinuxResult Nat) :
      (∀ size, result = .ok size → size = 0) →
      PipeStep state (state.start (.writeReturned buf result))
  | writeEntered (buf : List UInt8) : state.writeEnd = true →
      PipeStep state (state.start (.writing ⟨buf, 0, Nat.zero_le _⟩))
  | yielded : PipeStep state state
  | delivered (call len : Nat) (bytes : List UInt8) (ring : PipeRingBuffer) :
      state.calls[call]? = some (.reading len) →
      bytes ≠ [] →
      bytes.length ≤ len →
      state.ring.contents = bytes ++ ring.contents →
      PipeStep state
        { state with
          ring := ring
          calls := state.calls.set call (.readReturned len (.ok bytes))
          deliveries := state.deliveries ++ [(call, bytes)] }
  | endOfFile (call len : Nat) : state.calls[call]? = some (.reading len) →
      (len ≠ 0 → state.ring.contents = []) →
      state.closed = true →
      PipeStep state
        { state with
          calls := state.calls.set call (.readReturned len (.ok []))
          deliveries := state.deliveries ++ [(call, [])] }
  | stored (call : Nat) (progress after : WriteProgress)
      (ring : PipeRingBuffer) (bytes : List UInt8) (returns : Bool) :
      state.calls[call]? = some (.writing progress) →
      after.buf = progress.buf →
      progress.buf.take after.writeSize = progress.buf.take progress.writeSize ++ bytes →
      ring.contents = state.ring.contents ++ bytes →
      PipeStep state
        { state with
          ring := ring
          calls := state.calls.set call
              (if returns then
                .writeReturned progress.buf (.ok after.writeSize)
              else .writing after)
          appended := state.appended ++ bytes.map fun byte => (call, byte) }
  | readEndDropped : state.calls.any PipeCall.isReading = false →
      PipeStep state { state with readEnd := false }
  | writeEndDropped : state.calls.any PipeCall.isWriting = false →
      PipeStep state { state with writeEnd := false }

variable {state target : PipeState} {len : Nat}

private theorem step_of_read {readable : Bool}
    (stepped : pipeNext state (.read readable len) = some target) :
    PipeStep state target := by
  simp only [pipeNext] at stepped
  split at stepped
  · rename_i alive
    cases readable with
    | false =>
        simp only [readEntry, Bool.not_false, if_true, Option.some.injEq] at stepped
        subst target
        exact PipeStep.readRefused len _ (by simp)
    | true =>
        by_cases noBuffer : len = 0
        · simp only [readEntry, noBuffer, Bool.not_true, Bool.false_eq_true, if_false, if_true,
            Option.some.injEq] at stepped
          subst target
          exact PipeStep.readRefused 0 _ (by simp)
        · simp only [readEntry, noBuffer, Bool.not_true,
            Bool.false_eq_true, if_false, Option.some.injEq] at stepped
          subst target
          exact PipeStep.readEntered len alive noBuffer
  · simp at stepped

private theorem step_of_write {readable : Bool} {buf : List UInt8}
    (stepped : pipeNext state (.write readable buf) = some target) :
    PipeStep state target := by
  simp only [pipeNext] at stepped
  split at stepped
  · rename_i alive
    cases readable with
    | true =>
        simp only [writeEntry, if_true, Option.some.injEq] at stepped
        subst target
        exact PipeStep.writeRefused buf _ (by simp)
    | false =>
        by_cases isClosed : state.closed = true
        · simp only [writeEntry, isClosed, Bool.false_eq_true, if_false,
            if_true, Option.some.injEq] at stepped
          subst target
          exact PipeStep.writeRefused buf _ (by simp)
        · by_cases noBytes : buf.isEmpty = true
          · simp only [writeEntry, isClosed, noBytes, Bool.false_eq_true,
              if_false, if_true, Option.some.injEq] at stepped
            subst target
            exact PipeStep.writeRefused buf _ (by simp)
          · simp only [writeEntry, isClosed, noBytes, Bool.false_eq_true,
              if_false, Option.some.injEq] at stepped
            subst target
            exact PipeStep.writeEntered buf alive
  · simp at stepped

variable {call : Nat}

private theorem step_of_readSection (isReading : state.calls[call]? = some (.reading len))
    (stepped : pipeNext state (.lockSection call) = some target) :
    PipeStep state target := by
  simp only [pipeNext, isReading] at stepped
  cases outcome : readSection state.ring state.closed len with
  | mk bytes ring =>
      cases bytes with
      | none =>
          simp only [outcome, Option.some.injEq] at stepped
          subst target
          rw [readSection_again outcome]
          exact PipeStep.yielded
      | some bytes =>
          simp only [outcome, Option.some.injEq] at stepped
          subst target
          by_cases nothing : bytes = []
          · subst bytes
            obtain ⟨isClosed, sameRing, drained⟩ := readSection_eof outcome
            subst ring
            exact PipeStep.endOfFile call len isReading drained isClosed
          · obtain ⟨taken, fits⟩ := readSection_bytes outcome nothing
            exact PipeStep.delivered call len bytes ring isReading nothing fits taken

private theorem step_of_writeSection {progress : WriteProgress}
    (isWriting : state.calls[call]? = some (.writing progress))
    (stepped : pipeNext state (.lockSection call) = some target) :
    PipeStep state target := by
  simp only [pipeNext, isWriting, Option.some.injEq] at stepped
  subst target
  obtain ⟨contents, sameBuf, taken, returned⟩ := writeSection_spec state.ring state.closed progress
  cases outcome : writeSection state.ring state.closed progress with
  | mk size turn =>
      simp only [outcome] at contents sameBuf taken returned
      cases size with
      | none =>
          exact PipeStep.stored call progress turn.progress turn.ring
              turn.stored false isWriting sameBuf taken contents
      | some size =>
          have isSize := returned size rfl
          subst size
          exact PipeStep.stored call progress turn.progress turn.ring
              turn.stored true isWriting sameBuf taken contents

theorem pipeStep_of_next {action : PipeAction} (stepped : pipeNext state action = some target) :
    PipeStep state target := by
  cases action with
  | read readable len =>
      exact step_of_read stepped
  | write readable buf =>
      exact step_of_write stepped
  | lockSection call =>
      cases found : state.calls[call]? with
      | none =>
          simp [pipeNext, found] at stepped
      | some current =>
          cases current with
          | reading len =>
              exact step_of_readSection found stepped
          | writing progress =>
              exact step_of_writeSection found stepped
          | readReturned len result =>
              simp [pipeNext, found] at stepped
          | writeReturned buf result =>
              simp [pipeNext, found] at stepped
  | drop readable =>
      cases readable with
      | true =>
          simp only [pipeNext] at stepped
          split at stepped
          · rename_i droppable
            simp only [Option.some.injEq] at stepped
            subst target
            exact PipeStep.readEndDropped (by simp_all)
          · simp at stepped
      | false =>
          simp only [pipeNext] at stepped
          split at stepped
          · rename_i droppable
            simp only [Option.some.injEq] at stepped
            subst target
            exact PipeStep.writeEndDropped (by simp_all)
          · simp at stepped

/-! ## The invariant -/

namespace PipeState

def deliveriesTo (state : PipeState) (call : Nat) : List (Nat × List UInt8) :=
  state.deliveries.filter fun entry => entry.1 = call

def CallSound (state : PipeState) (call : Nat) : PipeCall → Prop
  | .reading len =>
      state.readEnd = true ∧ len ≠ 0 ∧ state.deliveriesTo call = []
  | .readReturned len (.ok []) =>
      len ≠ 0 → state.writeEnd = false ∧ state.ring.contents = []
  | .readReturned len (.ok bytes) =>
      bytes.length ≤ len ∧ state.deliveriesTo call = [(call, bytes)]
  | .readReturned _ (.error _) => True
  | .writing progress =>
      state.writeEnd = true ∧ state.appendedBy call = progress.buf.take progress.writeSize
  | .writeReturned buf (.ok size) =>
      size ≤ buf.length ∧ state.appendedBy call = buf.take size
  | .writeReturned _ (.error _) => state.appendedBy call = []

structure StreamInvariant (state : PipeState) : Prop where
  stream : state.appendedBytes = state.deliveredBytes ++ state.ring.contents
  sound : ∀ call current, state.calls[call]? = some current → state.CallSound call current
  storedByStarted : ∀ entry ∈ state.appended, entry.1 < state.calls.length
  deliveredToStarted : ∀ entry ∈ state.deliveries, entry.1 < state.calls.length

theorem CallSound.transfer {current : PipeCall} (sound : state.CallSound call current)
    (sameStored : target.appendedBy call = state.appendedBy call)
    (sameDeliveries : target.deliveriesTo call = state.deliveriesTo call)
    (readEndKept : current.isReading = true → target.readEnd = state.readEnd)
    (writeEndKept : current.isWriting = true → target.writeEnd = state.writeEnd)
    (drainedKept :
      state.writeEnd = false → state.ring.contents = [] →
        target.writeEnd = false ∧ target.ring.contents = []) :
    target.CallSound call current := by
  cases current with
  | reading len =>
      obtain ⟨alive, wanted, none⟩ := sound
      exact ⟨(readEndKept rfl).trans alive, wanted, sameDeliveries.trans none⟩
  | readReturned len result =>
      match result, sound with
      | .ok [], sound =>
          intro wanted
          exact drainedKept (sound wanted).1 (sound wanted).2
      | .ok (_ :: _), sound =>
          exact ⟨sound.1, sameDeliveries.trans sound.2⟩
      | .error _, _ =>
          trivial
  | writing progress =>
      exact ⟨(writeEndKept rfl).trans sound.1, sameStored.trans sound.2⟩
  | writeReturned buf result =>
      match result, sound with
      | .ok size, sound =>
          exact ⟨sound.1, sameStored.trans sound.2⟩
      | .error _, sound =>
          exact sameStored.trans sound

namespace StreamInvariant

variable {state : PipeState}

theorem appendedBy_unstarted (invariant : state.StreamInvariant)
    (unstarted : state.calls.length ≤ call) :
    state.appendedBy call = [] := by
  simp only [appendedBy, List.map_eq_nil_iff, List.filter_eq_nil_iff, decide_eq_true_eq]
  intro entry member isCall
  have := invariant.storedByStarted entry member
  omega

theorem deliveriesTo_unstarted (invariant : state.StreamInvariant)
    (unstarted : state.calls.length ≤ call) :
    state.deliveriesTo call = [] := by
  simp only [deliveriesTo, List.filter_eq_nil_iff, decide_eq_true_eq]
  intro entry member isCall
  have := invariant.deliveredToStarted entry member
  omega

theorem new : PipeState.new.StreamInvariant where
  stream := rfl
  sound := by
    intro call current found
    simp [PipeState.new] at found
  storedByStarted := by simp [PipeState.new]
  deliveredToStarted := by simp [PipeState.new]

theorem start (invariant : state.StreamInvariant) {call : PipeCall}
    (sound : state.CallSound state.calls.length call) :
    (state.start call).StreamInvariant where
  stream := invariant.stream
  sound := by
    intro index current found
    simp only [PipeState.start] at found
    by_cases started : index < state.calls.length
    · rw [List.getElem?_append_left started] at found
      exact invariant.sound index current found
    · rw [List.getElem?_append_right (by omega)] at found
      have isNew : index = state.calls.length := by
        by_contra differs
        rw [List.getElem?_eq_none (by simp; omega)] at found
        cases found
      subst index
      simp only [Nat.sub_self, List.getElem?_cons_zero, Option.some.injEq] at found
      subst current
      exact sound
  storedByStarted := by
    intro entry member
    have := invariant.storedByStarted entry member
    simp only [PipeState.start, List.length_append, List.length_cons, List.length_nil]
    omega
  deliveredToStarted := by
    intro entry member
    have := invariant.deliveredToStarted entry member
    simp only [PipeState.start, List.length_append, List.length_cons, List.length_nil]
    omega

theorem section_of_calls {target : PipeState} {call : Nat} {changed : PipeCall}
    (callsSet : target.calls = state.calls.set call changed)
    (stream : target.appendedBytes = target.deliveredBytes ++ target.ring.contents)
    (changedSound : target.CallSound call changed)
    (othersSound :
      ∀ other current, other ≠ call → state.calls[other]? = some current →
        target.CallSound other current)
    (stored : ∀ entry ∈ target.appended, entry.1 < state.calls.length)
    (delivered : ∀ entry ∈ target.deliveries, entry.1 < state.calls.length) :
    target.StreamInvariant where
  stream := stream
  sound := by
    intro index current found
    rw [callsSet, List.getElem?_set] at found
    by_cases isCall : call = index
    · subst index
      simp only [if_true] at found
      split at found
      · simp only [Option.some.injEq] at found
        subst current
        exact changedSound
      · simp at found
    · simp only [if_neg isCall] at found
      exact othersSound index current (Ne.symm isCall) found
  storedByStarted := by
    simpa [callsSet] using stored
  deliveredToStarted := by
    simpa [callsSet] using delivered

private theorem filter_append_other {α : Type} (entries : List (Nat × α)) (call other : Nat)
    (added : List (Nat × α))
    (ofCall : ∀ entry ∈ added, entry.1 = call)
    (different : other ≠ call) :
    ((entries ++ added).filter fun entry => entry.1 = other) =
      entries.filter fun entry => entry.1 = other := by
  have nothing : (added.filter fun entry => entry.1 = other) = [] := by
    simp only [List.filter_eq_nil_iff, decide_eq_true_eq]
    intro entry member isOther
    exact different (isOther.symm.trans (ofCall entry member))
  rw [List.filter_append, nothing, List.append_nil]

private theorem filter_append_same {α : Type} (entries : List (Nat × α)) (call : Nat)
    (added : List (Nat × α))
    (ofCall : ∀ entry ∈ added, entry.1 = call) :
    ((entries ++ added).filter fun entry => entry.1 = call) =
      (entries.filter fun entry => entry.1 = call) ++ added := by
  rw [List.filter_append]
  congr 1
  simpa using ofCall

theorem readReturned (invariant : state.StreamInvariant)
    {call len : Nat} {bytes : List UInt8} {ring : PipeRingBuffer}
    (isReading : state.calls[call]? = some (.reading len))
    (taken : state.ring.contents = bytes ++ ring.contents)
    (sound :
      CallSound
        { state with
          ring := ring
          calls := state.calls.set call (.readReturned len (.ok bytes))
          deliveries := state.deliveries ++ [(call, bytes)] }
        call (.readReturned len (.ok bytes))) :
    StreamInvariant
      { state with
        ring := ring
        calls := state.calls.set call (.readReturned len (.ok bytes))
        deliveries := state.deliveries ++ [(call, bytes)] } := by
  have started : call < state.calls.length := (List.getElem?_eq_some_iff.mp isReading).1
  refine @section_of_calls state _ _ _ rfl ?_ sound ?_ ?_ ?_
  · have stream := invariant.stream
    simp only [appendedBytes, deliveredBytes, bytesOf] at stream ⊢
    rw [stream, taken]
    simp
  · intro other current different found
    apply (invariant.sound other current found).transfer
    · rfl
    · exact filter_append_other state.deliveries call other _ (by simp) different
    · intro _
      rfl
    · intro _
      rfl
    · intro gone drained
      rw [drained] at taken
      exact ⟨gone, (List.append_eq_nil_iff.mp taken.symm).2⟩
  · exact invariant.storedByStarted
  · intro entry member
    rcases List.mem_append.mp member with old | new
    · exact invariant.deliveredToStarted entry old
    · simp only [List.mem_singleton] at new
      subst entry
      exact started

theorem delivered (invariant : state.StreamInvariant) {bytes : List UInt8} {ring : PipeRingBuffer}
    (isReading : state.calls[call]? = some (.reading len))
    (nonempty : bytes ≠ [])
    (fits : bytes.length ≤ len)
    (taken : state.ring.contents = bytes ++ ring.contents) :
    StreamInvariant
      { state with
        ring := ring
        calls := state.calls.set call (.readReturned len (.ok bytes))
        deliveries := state.deliveries ++ [(call, bytes)] } := by
  obtain ⟨_, _, undelivered⟩ := invariant.sound call _ isReading
  apply invariant.readReturned isReading taken
  cases bytes with
  | nil =>
      exact (nonempty rfl).elim
  | cons byte rest =>
      refine ⟨fits, ?_⟩
      have own := filter_append_same state.deliveries call [(call, byte :: rest)] (by simp)
      simp only [deliveriesTo] at undelivered ⊢
      rw [own, undelivered, List.nil_append]

theorem endOfFile (invariant : state.StreamInvariant)
    (isReading : state.calls[call]? = some (.reading len))
    (drained : len ≠ 0 → state.ring.contents = [])
    (isClosed : state.closed = true) :
    StreamInvariant
      { state with
        calls := state.calls.set call (.readReturned len (.ok []))
        deliveries := state.deliveries ++ [(call, [])] } := by
  obtain ⟨readEndAlive, _, _⟩ := invariant.sound call _ isReading
  apply @readReturned state invariant call len [] state.ring isReading rfl
  intro wanted
  refine ⟨?_, drained wanted⟩
  by_contra writeEndAlive
  simp [closed, strongCount, readEndAlive, writeEndAlive] at isClosed

theorem stored (invariant : state.StreamInvariant) {progress after : WriteProgress}
    {ring : PipeRingBuffer} {bytes : List UInt8} (returns : Bool)
    (isWriting : state.calls[call]? = some (.writing progress))
    (sameBuf : after.buf = progress.buf)
    (taken : progress.buf.take after.writeSize = progress.buf.take progress.writeSize ++ bytes)
    (contents : ring.contents = state.ring.contents ++ bytes) :
    StreamInvariant
      { state with
        ring := ring
        calls := state.calls.set call
            (if returns then
              .writeReturned progress.buf (.ok after.writeSize)
            else .writing after)
        appended := state.appended ++ bytes.map fun byte => (call, byte) } := by
  have started : call < state.calls.length := (List.getElem?_eq_some_iff.mp isWriting).1
  obtain ⟨writeEndAlive, storedSoFar⟩ := invariant.sound call _ isWriting
  have ofCall : ∀ entry ∈ bytes.map fun byte => (call, byte), entry.1 = call := by
    simp
  have storedNow :
      ((state.appended ++ bytes.map fun byte => (call, byte)).filter
          fun entry => entry.1 = call).map Prod.snd =
        progress.buf.take after.writeSize := by
    rw [filter_append_same _ _ _ ofCall, List.map_append, taken, ← storedSoFar]
    simp [appendedBy, Function.comp_def]
  refine @section_of_calls state _ _ _ rfl ?_ ?_ ?_ ?_ ?_
  · have stream := invariant.stream
    simp only [appendedBytes, deliveredBytes] at stream ⊢
    rw [List.map_append, stream, contents]
    simp [Function.comp_def]
  · cases returns with
    | true =>
        refine ⟨?_, storedNow⟩
        rw [← sameBuf]
        exact after.inside
    | false =>
        refine ⟨writeEndAlive, ?_⟩
        rw [sameBuf]
        exact storedNow
  · intro other current different found
    apply (invariant.sound other current found).transfer
    · simp only [appendedBy]
      rw [filter_append_other _ _ _ _ ofCall different]
    · rfl
    · intro _
      rfl
    · intro _
      rfl
    · intro gone _
      rw [writeEndAlive] at gone
      cases gone
  · intro entry member
    rcases List.mem_append.mp member with old | new
    · exact invariant.storedByStarted entry old
    · rw [ofCall entry new]
      exact started
  · exact invariant.deliveredToStarted

theorem readEndDropped (invariant : state.StreamInvariant)
    (unused : state.calls.any PipeCall.isReading = false) :
    StreamInvariant { state with readEnd := false } where
  stream := invariant.stream
  sound := by
    intro call current found
    apply (invariant.sound call current found).transfer
    · rfl
    · rfl
    · intro isReading
      rw [List.any_eq_false] at unused
      exact (unused current (List.mem_of_getElem? found) isReading).elim
    · intro _
      rfl
    · intro gone empty
      exact ⟨gone, empty⟩
  storedByStarted := invariant.storedByStarted
  deliveredToStarted := invariant.deliveredToStarted

theorem writeEndDropped (invariant : state.StreamInvariant)
    (unused : state.calls.any PipeCall.isWriting = false) :
    StreamInvariant { state with writeEnd := false } where
  stream := invariant.stream
  sound := by
    intro call current found
    apply (invariant.sound call current found).transfer
    · rfl
    · rfl
    · intro _
      rfl
    · intro isWriting
      rw [List.any_eq_false] at unused
      exact (unused current (List.mem_of_getElem? found) isWriting).elim
    · intro _ empty
      exact ⟨rfl, empty⟩
  storedByStarted := invariant.storedByStarted
  deliveredToStarted := invariant.deliveredToStarted

theorem step {target : PipeState} (invariant : state.StreamInvariant)
    (stepped : PipeStep state target) :
    target.StreamInvariant := by
  cases stepped with
  | readRefused len result refused =>
      apply invariant.start
      match result, refused with
      | .ok bytes, refused =>
          obtain ⟨rfl, noBuffer⟩ := refused bytes rfl
          intro wanted
          exact (wanted noBuffer).elim
      | .error _, _ =>
          trivial
  | readEntered len alive wanted =>
      apply invariant.start
      exact ⟨alive, wanted, invariant.deliveriesTo_unstarted (le_refl _)⟩
  | writeRefused buf result refused =>
      apply invariant.start
      have unstored := invariant.appendedBy_unstarted (le_refl _)
      match result, refused with
      | .ok size, refused =>
          have noBytes := refused size rfl
          subst size
          exact ⟨Nat.zero_le _, by simpa using unstored⟩
      | .error _, _ =>
          exact unstored
  | writeEntered buf alive =>
      apply invariant.start
      exact ⟨alive, by simpa using invariant.appendedBy_unstarted (le_refl _)⟩
  | yielded =>
      exact invariant
  | delivered call len bytes ring isReading nonempty fits taken =>
      exact invariant.delivered isReading nonempty fits taken
  | endOfFile call len isReading drained isClosed =>
      exact invariant.endOfFile isReading drained isClosed
  | stored call progress after ring bytes returns isWriting sameBuf taken contents =>
      exact invariant.stored returns isWriting sameBuf taken contents
  | readEndDropped unused =>
      exact invariant.readEndDropped unused
  | writeEndDropped unused =>
      exact invariant.writeEndDropped unused

theorem of_reachable (reached : pipeMachine.Reachable state) :
    state.StreamInvariant := by
  apply Machine.Reachable.invariant _ _ reached
  · intro initial started
    rw [show initial = PipeState.new from started]
    exact StreamInvariant.new
  · intro source action target _ holds stepped
    exact holds.step (pipeStep_of_next stepped)

end StreamInvariant

end PipeState

/-! ## The pipe as a stream -/

open PipeState

private theorem exists_split_of_deliveriesTo {bytes : List UInt8}
    (only : state.deliveriesTo call = [(call, bytes)]) :
    ∃ before after,
      state.deliveries = before ++ (call, bytes) :: after ∧
        ∀ entry ∈ before ++ after, entry.1 ≠ call := by
  have member : (call, bytes) ∈ state.deliveriesTo call := by
    simp [only]
  obtain ⟨before, after, split⟩ := List.append_of_mem (List.mem_of_mem_filter member)
  refine ⟨before, after, split, ?_⟩
  have counted := congrArg List.length only
  rw [deliveriesTo, split, List.filter_append, List.filter_cons] at counted
  simp only [decide_true, if_true, List.length_append, List.length_cons, List.length_nil] at counted
  intro entry inRest isCall
  rcases List.mem_append.mp inRest with inBefore | inAfter
  · have kept : entry ∈ before.filter fun entry => entry.1 = call := by
      simp [inBefore, isCall]
    have := List.length_pos_of_mem kept
    omega
  · have kept : entry ∈ after.filter fun entry => entry.1 = call := by
      simp [inAfter, isCall]
    have := List.length_pos_of_mem kept
    omega

/-- A pipe is a reliable byte stream under every interleaving: what was
stored is what was delivered followed by at most 256 buffered bytes; a write
that returns `n` has stored the first `n` bytes of its buffer; a read that
returns bytes got them in one piece, right behind everything delivered
before; and end of file means that the write end is gone and nothing is left
to read. -/
theorem pipe_reliable_stream {state : PipeState} (reached : pipeMachine.Reachable state) :
    state.appendedBytes = state.deliveredBytes ++ state.ring.contents ∧
      state.ring.contents.length ≤ 256 ∧
      (∀ (call : Nat) (buf : List UInt8) (size : Nat),
        state.calls[call]? = some (.writeReturned buf (.ok size)) →
          size ≤ buf.length ∧ state.appendedBy call = buf.take size) ∧
      (∀ (call len : Nat) (bytes : List UInt8),
        state.calls[call]? = some (.readReturned len (.ok bytes)) →
        bytes ≠ [] →
          bytes.length ≤ len ∧
            ∃ before after,
              state.deliveries = before ++ (call, bytes) :: after ∧
                (∀ entry ∈ before ++ after, entry.1 ≠ call) ∧
                state.appendedBytes =
                  bytesOf before ++ bytes ++ (bytesOf after ++ state.ring.contents)) ∧
      (∀ call len : Nat, state.calls[call]? = some (.readReturned len (.ok [])) →
        len ≠ 0 → state.writeEnd = false ∧ state.appendedBytes = state.deliveredBytes) := by
  have invariant := StreamInvariant.of_reachable reached
  refine ⟨invariant.stream, ?_, ?_, ?_, ?_⟩
  · rw [PipeRingBuffer.length_contents]
    exact state.ring.availableRead_le_size
  · intro call buf size returned
    exact invariant.sound call _ returned
  · intro call len bytes returned nonempty
    have sound := invariant.sound call _ returned
    cases bytes with
    | nil =>
        exact (nonempty rfl).elim
    | cons byte rest =>
        obtain ⟨fits, only⟩ := sound
        obtain ⟨before, after, split, others⟩ := exists_split_of_deliveriesTo only
        refine ⟨fits, before, after, split, others, ?_⟩
        rw [invariant.stream, deliveredBytes, split]
        simp [bytesOf]
  · intro call len returned wanted
    have sound : len ≠ 0 → _ := invariant.sound call _ returned
    obtain ⟨gone, drained⟩ := sound wanted
    refine ⟨gone, ?_⟩
    rw [invariant.stream, drained, List.append_nil]

def shortPipeRun : List PipeAction :=
  [.write false [1, 2, 3], .lockSection 0, .read true 2, .lockSection 1,
    .read true 5, .lockSection 2, .drop false, .read true 4,
    .lockSection 3]

/-- The calls of `shortPipeRun` have returned as expected. -/
def shortPipeRunReturned (state : PipeState) : Bool :=
  match state.calls with
  | [.writeReturned [1, 2, 3] (.ok 3), .readReturned 2 (.ok [1, 2]),
      .readReturned 5 (.ok [3]), .readReturned 4 (.ok [])] => true
  | _ => false

theorem pipe_reliable_stream_shortRun :
    ∃ state, pipeMachine.Reachable state ∧ shortPipeRunReturned state = true ∧
      state.appendedBytes =
        state.deliveredBytes ++ state.ring.contents := by
  obtain ⟨state, reached, returned⟩ :=
    pipeMachine.exists_reachable_of_exec shortPipeRun shortPipeRunReturned rfl (by decide)
  exact ⟨state, reached, returned, (pipe_reliable_stream reached).1⟩

end Vegar.File

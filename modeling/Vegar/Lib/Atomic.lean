import Mathlib.Data.List.Perm.Basic
import Mathlib.Data.List.Nodup
import Vegar.Lib.Machine
import Vegar.Lib.Roster

/-!
# Calls on a shared object

Calls act on one object in several atomic steps each and interleave.  A run is
linearizable when the calls, executed one after the other in some order that
agrees with real time, return the same and leave the same object.  One step
of a call decides what it is bound to return.
-/

namespace Vegar.Lib

/-- Calls in steps: where a call begins, its steps, where it has returned, and
in which phase a call that is decided is bound to return.  The steps know the
number of the call. -/
structure Protocol (Call Phase Object : Type) where
  enter : Phase
  step : Nat → Call → Phase → Object → Option (Phase × Object)
  returned : Phase → Bool
  settled : Phase → Option Phase
  enter_open : settled enter = none
  settled_of_returned : ∀ phase, returned phase = true → settled phase = some phase

structure CallRecord (Call Phase : Type) where
  call : Call
  phase : Phase
  before : List Nat
  deriving DecidableEq

structure AtomicState (Call Phase Object : Type) where
  initial : Object
  object : Object
  calls : List (CallRecord Call Phase)
  order : List Nat

inductive AtomicAction (Call : Type) where
  | invoke (call : Call)
  | step (index : Nat)
  deriving DecidableEq

def Precedes (earlier later : Nat) (sequence : List Nat) : Prop :=
  ∃ front back, sequence = front ++ back ∧ earlier ∈ front ∧ later ∈ back

namespace Protocol

variable {Call Phase Object : Type} (protocol : Protocol Call Phase Object)

inductive Runs (index : Nat) (call : Call) : Phase → Object → Phase → Object → Prop
  | refl (phase : Phase) (object : Object) : Runs index call phase object phase object
  | tail {first last next : Phase} {source middle target : Object} :
      Runs index call first source last middle →
      protocol.step index call last middle = some (next, target) →
      Runs index call first source next target

inductive Replays (ends : Nat → Option (Call × Phase)) : Object → List Nat → Object → Prop
  | nil (object : Object) : Replays ends object [] object
  | snoc {source middle target : Object} {sequence : List Nat} {index : Nat}
      {call : Call} {final : Phase} :
      Replays ends source sequence middle →
      ends index = some (call, final) →
      protocol.Runs index call protocol.enter middle final target →
      Replays ends source (sequence ++ [index]) target

def next (state : AtomicState Call Phase Object) :
    AtomicAction Call → Option (AtomicState Call Phase Object)
  | .invoke call =>
      some
        { state with
          calls := state.calls ++ [⟨call, protocol.enter, state.order⟩] }
  | .step index =>
      (state.calls[index]?).bind fun record =>
        (protocol.step index record.call record.phase state.object).map fun moved =>
            { state with
              object := moved.2
              calls := state.calls.modify index fun changed =>
                { changed with phase := moved.1 }
              order :=
                if protocol.returned moved.1 then state.order ++ [index]
                else state.order }

variable {protocol} in
theorem next_step {state : AtomicState Call Phase Object} {index : Nat}
    {record : CallRecord Call Phase} {moved : Phase × Object}
    (found : state.calls[index]? = some record)
    (stepped : protocol.step index record.call record.phase state.object = some moved) :
    protocol.next state (.step index) =
      some
        { state with
          object := moved.2
          calls := state.calls.modify index fun changed =>
            { changed with phase := moved.1 }
          order :=
            if protocol.returned moved.1 then state.order ++ [index]
            else state.order } := by
  simp only [next, found, Option.bind_some, stepped, Option.map_some]

def machine (startObject : Object → Prop) :
    Machine (AtomicState Call Phase Object) (AtomicAction Call) where
  start state :=
    startObject state.initial ∧ state.object = state.initial ∧ state.calls = [] ∧ state.order = []
  next := protocol.next

def Linearizable (state : AtomicState Call Phase Object) : Prop :=
  (∀ record ∈ state.calls, protocol.returned record.phase = true) →
    ∃ sequence : List Nat, sequence.Perm (List.range state.calls.length) ∧
      protocol.Replays (fun index =>
          (state.calls[index]?).map fun record =>
            (record.call, record.phase))
        state.initial sequence state.object ∧
      ∀ (later : Nat) (record : CallRecord Call Phase),
        state.calls[later]? = some record →
          ∀ earlier ∈ record.before, Precedes earlier later sequence

/-! ## Replaying in the order of decision -/

def ends (calls : List (CallRecord Call Phase)) (index : Nat) : Option (Call × Phase) :=
  (calls[index]?).bind fun record =>
    (protocol.settled record.phase).map fun final => (record.call, final)

variable {protocol}

theorem ends_of_found {calls : List (CallRecord Call Phase)} {index : Nat}
    {record : CallRecord Call Phase}
    (found : calls[index]? = some record) :
    protocol.ends calls index =
      (protocol.settled record.phase).map fun final => (record.call, final) := by
  rw [ends, found, Option.bind_some]

theorem exists_of_ends {calls : List (CallRecord Call Phase)} {index : Nat}
    (isDecided : (protocol.ends calls index).isSome = true) :
    ∃ record, calls[index]? = some record := by
  cases found : calls[index]? with
  | none =>
      rw [ends, found] at isDecided
      cases isDecided
  | some record => exact ⟨record, rfl⟩

theorem ends_modify_of_ne {calls : List (CallRecord Call Phase)} {index other : Nat}
    (different : other ≠ index) (phase : Phase) :
    protocol.ends (calls.modify index fun moved => { moved with phase := phase }) other =
      protocol.ends calls other := by
  have same :
      (calls.modify index fun moved => { moved with phase := phase })[other]? = calls[other]? :=
    List.getElem?_modify_ne _ _ (Ne.symm different)
  rw [ends, same, ends]

theorem ends_modify_self {calls : List (CallRecord Call Phase)} {index : Nat}
    {record : CallRecord Call Phase} {phase : Phase}
    (found : calls[index]? = some record) :
    protocol.ends (calls.modify index fun moved => { moved with phase := phase }) index =
      (protocol.settled phase).map fun final => (record.call, final) :=
  ends_of_found (Roster.getElem?_modify_of_some found _)

theorem Replays.of_ends {ends changed : Nat → Option (Call × Phase)} {source target : Object}
    {sequence : List Nat}
    (replays : protocol.Replays ends source sequence target)
    (same : ∀ index ∈ sequence, changed index = ends index) :
    protocol.Replays changed source sequence target := by
  induction replays with
  | nil => exact .nil _
  | snoc _ isEnd runs ih =>
      have sameLast := same _ (List.mem_append_right _ (List.mem_singleton_self _))
      refine .snoc (ih ?_) (sameLast.trans isEnd) runs
      intro index member
      exact same index (List.mem_append_left _ member)

/-- The calls that are decided, in the order of their decision, lead from the
object at the start to `base`. -/
structure Linearized (protocol : Protocol Call Phase Object)
    (state : AtomicState Call Phase Object) (sequence : List Nat)
    (base : Object) : Prop where
  replays : protocol.Replays (protocol.ends state.calls) state.initial sequence base
  decided : ∀ index, index ∈ sequence ↔ (protocol.ends state.calls index).isSome = true
  nodup : sequence.Nodup
  completed : state.order ⊆ sequence
  began :
    ∀ (index : Nat) (record : CallRecord Call Phase),
      state.calls[index]? = some record →
        ∃ front back, sequence = front ++ back ∧ record.before ⊆ front ∧ index ∉ front

namespace Linearized

variable {state : AtomicState Call Phase Object} {sequence : List Nat} {base : Object}

theorem start (object : Object) : Linearized protocol ⟨object, object, [], []⟩ [] object where
  replays := .nil object
  decided index := by simp [ends]
  nodup := List.nodup_nil
  completed := List.Subset.refl _
  began := nofun

theorem invoke (holds : Linearized protocol state sequence base) (call : Call) :
    Linearized protocol
      { state with
        calls := state.calls ++ [⟨call, protocol.enter, state.order⟩] }
      sequence base := by
  have sameEnds (index : Nat) :
      protocol.ends (state.calls ++ [⟨call, protocol.enter, state.order⟩]) index =
        protocol.ends state.calls index := by
    cases added : (state.calls ++ [⟨call, protocol.enter, state.order⟩])[index]? with
    | none =>
        have absent : state.calls[index]? = none := by
          rw [List.getElem?_eq_none_iff] at added ⊢
          rw [List.length_append] at added
          omega
        rw [ends, ends, added, absent]
    | some record =>
        rcases Roster.old_or_added added with before | ⟨isLast, rfl⟩
        · rw [ends_of_found added, ends_of_found before]
        · have absent : state.calls[index]? = none := by
            rw [isLast]
            exact List.getElem?_eq_none (Nat.le_refl _)
          rw [ends_of_found added, protocol.enter_open, ends, absent]
          rfl
  refine ⟨?_, ?_, holds.nodup, holds.completed, ?_⟩
  · exact holds.replays.of_ends fun index _ => sameEnds index
  · intro index
    rw [holds.decided index, sameEnds]
  · intro index record found
    rcases Roster.old_or_added found with before | ⟨isLast, rfl⟩
    · exact holds.began index record before
    · refine ⟨sequence, [], (List.append_nil _).symm, holds.completed, ?_⟩
      intro member
      obtain ⟨record, known⟩ := exists_of_ends ((holds.decided index).mp member)
      have bounded := (List.getElem?_eq_some_iff.mp known).1
      omega

section Move

variable {index : Nat} {record : CallRecord Call Phase} {phase : Phase}
  {changed : Object} (holds : Linearized protocol state sequence base)
  (found : state.calls[index]? = some record)

include holds found

theorem decide {final : Phase} {after : Object} (wasOpen : protocol.settled record.phase = none)
    (isSettled : protocol.settled phase = some final)
    (runs : protocol.Runs index record.call protocol.enter base final after) :
    Linearized protocol
      { state with
        object := changed
        calls := state.calls.modify index fun moved =>
          { moved with phase := phase }
        order :=
          if protocol.returned phase then state.order ++ [index]
          else state.order }
      (sequence ++ [index]) after := by
  have notYet : index ∉ sequence := by
    rw [holds.decided index, ends_of_found found, wasOpen]
    exact Bool.false_ne_true
  have ownEnd := @ends_modify_self _ _ _ protocol _ _ _ phase found
  rw [isSettled, Option.map_some] at ownEnd
  refine ⟨?_, ?_, ?_, ?_, ?_⟩
  · refine .snoc (holds.replays.of_ends ?_) ownEnd runs
    intro other member
    apply ends_modify_of_ne
    rintro rfl
    exact notYet member
  · intro other
    rw [List.mem_append, List.mem_singleton]
    by_cases same : other = index
    · rw [same, ownEnd]
      exact iff_of_true (Or.inr rfl) rfl
    · rw [ends_modify_of_ne same, or_iff_left same]
      exact holds.decided other
  · rw [List.nodup_append]
    refine ⟨holds.nodup, List.nodup_singleton index, ?_⟩
    intro other member last isLast same
    rw [same, List.mem_singleton.mp isLast] at member
    exact notYet member
  · have grows : state.order ⊆ sequence ++ [index] :=
      List.Subset.trans holds.completed (List.subset_append_left _ _)
    dsimp only
    split
    · exact List.append_subset.mpr ⟨grows, List.subset_append_right sequence [index]⟩
    · exact grows
  · intro other later laterFound
    have wasFound :
        ∃ earlier : CallRecord Call Phase,
          state.calls[other]? = some earlier ∧ earlier.before = later.before := by
      rcases Roster.changed_or_same found laterFound with ⟨rfl, rfl⟩ | ⟨-, before⟩
      · exact ⟨record, found, rfl⟩
      · exact ⟨later, before, rfl⟩
    obtain ⟨earlier, isEarlier, sameBefore⟩ := wasFound
    obtain ⟨front, back, isSequence, returned, notOwn⟩ := holds.began other earlier isEarlier
    refine ⟨front, back ++ [index], ?_, sameBefore ▸ returned, notOwn⟩
    rw [isSequence, List.append_assoc]

theorem quiet (same : protocol.settled phase = protocol.settled record.phase) :
    Linearized protocol
      { state with
        object := changed
        calls := state.calls.modify index fun moved =>
          { moved with phase := phase }
        order :=
          if protocol.returned phase then state.order ++ [index]
          else state.order }
      sequence base := by
  have sameEnds (other : Nat) : protocol.ends (state.calls.modify index fun moved =>
            { moved with phase := phase })
          other =
        protocol.ends state.calls other := by
    by_cases isIndex : other = index
    · rw [isIndex, ends_modify_self found, ends_of_found found, same]
    · exact ends_modify_of_ne isIndex phase
  refine ⟨?_, ?_, holds.nodup, ?_, ?_⟩
  · exact holds.replays.of_ends fun other _ => sameEnds other
  · intro other
    rw [holds.decided other, sameEnds]
  · dsimp only
    split
    · next isReturned =>
        refine List.append_subset.mpr ⟨holds.completed, ?_⟩
        apply List.cons_subset.mpr ⟨?_, List.nil_subset _⟩
        rw [holds.decided index, ends_of_found found, ← same,
          protocol.settled_of_returned phase isReturned]
        rfl
    · exact holds.completed
  · intro other later laterFound
    rcases Roster.changed_or_same found laterFound with ⟨rfl, rfl⟩ | ⟨-, before⟩
    · exact holds.began other record found
    · exact holds.began other later before

end Move

theorem linearizable (holds : Linearized protocol state sequence base)
    (isBase :
      (∀ record ∈ state.calls, protocol.returned record.phase = true) → state.object = base) :
    protocol.Linearizable state := by
  intro allReturned
  have decidedAll (index : Nat) (record : CallRecord Call Phase)
      (found : state.calls[index]? = some record) :
      protocol.ends state.calls index = some (record.call, record.phase) := by
    rw [ends_of_found found,
      protocol.settled_of_returned _ (allReturned record (List.mem_of_getElem? found)),
      Option.map_some]
  have complete (index : Nat) :
      index ∈ sequence ↔ index ∈ List.range state.calls.length := by
    rw [holds.decided index, List.mem_range]
    constructor
    · intro isDecided
      obtain ⟨record, found⟩ := exists_of_ends isDecided
      exact (List.getElem?_eq_some_iff.mp found).1
    · intro bounded
      rw [decidedAll index _ (List.getElem?_eq_getElem bounded)]
      rfl
  refine ⟨sequence, ?_, ?_, ?_⟩
  · exact (List.perm_ext_iff_of_nodup holds.nodup List.nodup_range).mpr complete
  · rw [isBase allReturned]
    apply holds.replays.of_ends
    intro index member
    obtain ⟨record, found⟩ := exists_of_ends ((holds.decided index).mp member)
    rw [decidedAll index record found, found, Option.map_some]
  · intro later record found earlier member
    obtain ⟨front, back, isSequence, returned, notOwn⟩ := holds.began later record found
    refine ⟨front, back, isSequence, returned member, ?_⟩
    have inSequence : later ∈ sequence := by
      rw [holds.decided later, decidedAll later record found]
      rfl
    rw [isSequence] at inSequence
    exact (List.mem_append.mp inSequence).resolve_left notOwn

end Linearized

end Protocol

end Vegar.Lib

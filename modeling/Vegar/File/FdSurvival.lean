import Vegar.File.FdLedger

/-!
# Dropped ends stay dropped

A call clones only references it found in a slot, so it brings no end of an
older pipe back once the last reference to that end is gone.  Ends come into
being with their pipe and at no other time.
-/

namespace Vegar.File

namespace FdWorld

/-- No end of the pipes below `bound` that was dropped is back, and no pipe
number is free again. -/
structure StaysDropped (bound : Nat) (before after : FdWorld) : Prop where
  pipes : before.pipes ≤ after.pipes
  dropped :
    ∀ pipe readable, pipe < bound →
      before.strong (.pipeEnd pipe readable) = 0 → after.strong (.pipeEnd pipe readable) = 0

namespace StaysDropped

variable {bound : Nat} {before between after : FdWorld}

theorem trans (first : StaysDropped bound before between)
    (second : StaysDropped bound between after) :
    StaysDropped bound before after where
  pipes := Nat.le_trans first.pipes second.pipes
  dropped pipe readable old gone :=
    second.dropped pipe readable old (first.dropped pipe readable old gone)

theorem of_counters_eq (samePipes : after.pipes = before.pipes)
    (sameStrong : after.strong = before.strong) :
    StaysDropped bound before after where
  pipes := Nat.le_of_eq samePipes.symm
  dropped pipe readable _ gone := by
    rw [sameStrong]
    exact gone

theorem refl (world : FdWorld) : StaysDropped bound world world := of_counters_eq rfl rfl

theorem of_update {ref : FileRef} {value : Nat} (samePipes : after.pipes = before.pipes)
    (strongSet : after.strong = Function.update before.strong ref value)
    (harmless :
      ∀ pipe readable, ref = .pipeEnd pipe readable → pipe < bound →
        before.strong ref = 0 → value = 0) :
    StaysDropped bound before after where
  pipes := Nat.le_of_eq samePipes.symm
  dropped pipe readable old gone := by
    rw [strongSet]
    by_cases same : FileRef.pipeEnd pipe readable = ref
    · subst same
      rw [Function.update_self]
      exact harmless pipe readable rfl old gone
    · rw [Function.update_of_ne same]
      exact gone

end StaysDropped

@[simp]
theorem strong_release (world : FdWorld) (ref : FileRef) :
    (world.release ref).strong = Function.update world.strong ref (world.strong ref - 1) := by
  unfold release
  by_cases last : world.strong ref = 1
  · cases ref <;> simp [last, dropEnd]
  · simp [last]

@[simp]
theorem pipes_release (world : FdWorld) (ref : FileRef) :
    (world.release ref).pipes = world.pipes := by
  unfold release
  by_cases last : world.strong ref = 1
  · cases ref <;> simp [last, dropEnd]
  · simp [last]

section Steps

variable {bound : Nat} {world : FdWorld}

theorem release_staysDropped (world : FdWorld) (ref : FileRef) :
    StaysDropped bound world (world.release ref) := by
  refine StaysDropped.of_update (pipes_release world ref) (strong_release world ref) ?_
  intro _ _ _ _ gone
  rw [gone]

theorem retain_staysDropped {ref : FileRef} (alive : 0 < world.strong ref) :
    StaysDropped bound world (world.retain ref) := by
  refine StaysDropped.of_update rfl rfl ?_
  intro _ _ _ _ gone
  omega

theorem newArc_staysDropped {pipe : Nat} (fresh : bound ≤ pipe) (readable : Bool) :
    StaysDropped bound world (world.newArc (.pipeEnd pipe readable)) := by
  refine StaysDropped.of_update rfl rfl ?_
  intro _ _ isRef old _
  cases isRef
  omega

theorem setSlot_staysDropped (world : FdWorld) (table id : Nat) (content : Option FileRef) :
    StaysDropped bound world (world.setSlot table id content) :=
  .of_counters_eq rfl rfl

end Steps

end FdWorld

end Vegar.File

import Mathlib.Data.List.Basic
import Vegar.Lib.Machine

/-!
# Bounded queues

First in, first out, up to a capacity.  An item is added at the back where
there is room, and removed from the front; which item is removed is part of
the action, so that a run of the queue shows what was taken out of it.
-/

namespace Vegar.Lib

universe u

variable {α : Type u}

inductive QueueAction (α : Type u) where
  | push (item : α)
  /-- The first item is removed, and it is this one. -/
  | pop (item : α)

variable [DecidableEq α]

def queueNext (capacity : Nat) (items : List α) : QueueAction α → Option (List α)
  | .push item =>
      if items.length < capacity then some (items ++ [item]) else none
  | .pop item =>
      match items with
      | [] => none
      | first :: rest => if first = item then some rest else none

def boundedQueue (capacity : Nat) : Machine (List α) (QueueAction α) where
  start items := items = []
  next := queueNext capacity

end Vegar.Lib

import Mathlib.Data.List.Flatten

/-!
# Walks through names

A walk starts at a stack of names and takes one name after the other.  One
name stays where it is, one goes back by a name, and every other one is put on
the stack.
-/

namespace Vegar.Lib.Resolved

universe u v

variable {Name : Type u} [DecidableEq Name] (here up : Name)

def enter (stack : List Name) (name : Name) : List Name :=
  if name = here then stack
  else if name = up then stack.dropLast
  else stack ++ [name]

def walk (stack names : List Name) : List Name := names.foldl (enter here up) stack

def Plain (names : List Name) : Prop := ∀ name ∈ names, name ≠ here ∧ name ≠ up

variable {here up} {stack names : List Name}

theorem walk_append (first second : List Name) :
    walk here up stack (first ++ second) = walk here up (walk here up stack first) second :=
  List.foldl_append

theorem walk_of_plain (plain : Plain here up names) :
    walk here up stack names = stack ++ names := by
  induction names generalizing stack with
  | nil => exact (List.append_nil _).symm
  | cons name rest ih =>
      obtain ⟨first, later⟩ := List.forall_mem_cons.mp plain
      have entered : enter here up stack name = stack ++ [name] := by
        rw [enter, if_neg first.1, if_neg first.2]
      change walk here up (enter here up stack name) rest = _
      rw [entered, ih later, List.append_assoc]
      rfl

theorem mem_walk {name : Name} (member : name ∈ walk here up stack names) :
    name ∈ stack ∨ name ∈ names ∧ name ≠ here ∧ name ≠ up := by
  induction names generalizing stack with
  | nil => exact .inl member
  | cons first rest ih =>
      rcases ih member with onStack | ⟨inRest, plain⟩
      · unfold enter at onStack
        split at onStack
        · exact .inl onStack
        · next notHere =>
            split at onStack
            · exact .inl ((List.dropLast_sublist _).subset onStack)
            · next notUp =>
                rcases List.mem_append.mp onStack with before | isFirst
                · exact .inl before
                · obtain rfl := List.mem_singleton.mp isFirst
                  exact .inr ⟨List.mem_cons_self, notHere, notUp⟩
      · exact .inr ⟨List.mem_cons_of_mem _ inRest, plain⟩

theorem length_flatMap_walk_le {α : Type v} (text : Name → List α) :
    ((walk here up stack names).flatMap text).length ≤
      (stack.flatMap text).length + (names.flatMap text).length := by
  induction names generalizing stack with
  | nil => exact Nat.le_add_right _ _
  | cons name rest ih =>
      have entered :
          ((enter here up stack name).flatMap text).length ≤
            (stack.flatMap text).length + (text name).length := by
        unfold enter
        split
        · exact Nat.le_add_right _ _
        · split
          · have shorter := ((List.dropLast_sublist stack).flatMap text).length_le
            omega
          · apply Nat.le_of_eq
            rw [List.flatMap_append, List.length_append, List.flatMap_singleton]
      have later := @ih (enter here up stack name)
      change ((walk here up (enter here up stack name) rest).flatMap text).length ≤ _
      rw [List.flatMap_cons, List.length_append]
      omega

end Vegar.Lib.Resolved

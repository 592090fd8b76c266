import FlatSyntax.Tree.Basic

namespace FlatSyntax

/-- The leaves around an offset, of which there are at most two. -/
inductive Touching (α : Type) where
  | none
  | single (leaf : α)
  | between (left right : α)
  deriving DecidableEq

namespace Touching

variable {α : Type}

def preferLeft : Touching α → Option α
  | none => .none
  | single x => some x
  | between x _ => some x

def preferRight : Touching α → Option α
  | none => .none
  | single x => some x
  | between _ y => some y

def ofSides : Option α → Option α → Touching α
  | some x, some y => between x y
  | some x, .none => single x
  | .none, some y => single y
  | .none, .none => none

def describe (showLeaf : α → Text) : Touching α → Text
  | none => "None".toList
  | single x => "Single(".toList ++ showLeaf x ++ [')']
  | between x y => "Between(".toList ++ showLeaf x ++ ", ".toList ++ showLeaf y ++ [')']

end Touching

namespace Tree

/-- The children of a node that an offset lies in or at the end of. -/
def touchedChildren (t : Tree) (i o : Nat) : List Nat :=
  (t.children i).filter fun c => (t.recordAt c).touches o

theorem lt_of_mem_touchedChildren {t : Tree} {i o c : Nat} (h : c ∈ t.touchedChildren i o) :
    c < i :=
  lt_of_mem_children (List.mem_filter.mp h).1

/-- The leaves under a node that an offset lies in or at the end of. Of the children the offset
touches, the first two are searched. -/
def touching (t : Tree) (i o : Nat) : Touching Nat :=
  if !(t.recordAt i).touches o then .none
  else if !t.hasChildren i then .single i
  else
    match _h : t.touchedChildren i o with
    | [] => .none
    | [c] => t.touching c o
    | l :: r :: _ => .ofSides (t.touching l o).preferLeft (t.touching r o).preferRight
  termination_by i
  decreasing_by
    all_goals
      refine lt_of_mem_touchedChildren (t := t) (o := o) ?_
      simp [_h]

end Tree

end FlatSyntax

import FlatSyntax.Tree.Basic

namespace FlatSyntax

inductive End where
  | front
  | back
  deriving DecidableEq

/-- A sequence that is taken from at both ends. What is left lies from `front` to before `back`. -/
structure Walk (α : Type) where
  items : Array α
  front : Nat
  back : Nat
  front_le_back : front ≤ back
  back_le_size : back ≤ items.size

namespace Walk

variable {α : Type}

def ofList (l : List α) : Walk α :=
  ⟨l.toArray, 0, l.length, Nat.zero_le _, by simp⟩

/-- What is left. -/
def toList (w : Walk α) : List α :=
  (w.items.toList.take w.back).drop w.front

def remaining (w : Walk α) : Nat :=
  w.back - w.front

/-- The item at one end and the walk without it. -/
def take (w : Walk α) (e : End) : Option α × Walk α :=
  if h : w.front < w.back then
    have hs := w.back_le_size
    match e with
    | .front =>
      (some w.items[w.front], ⟨w.items, w.front + 1, w.back, h, w.back_le_size⟩)
    | .back =>
      (some w.items[w.back - 1], ⟨w.items, w.front, w.back - 1, by omega, by omega⟩)
  else (none, w)

/-- The answers to a row of takes, each with the number of items left after it. -/
def takes (w : Walk α) : List End → List (Option α × Nat)
  | [] => []
  | e :: es => ((w.take e).1, (w.take e).2.remaining) :: (w.take e).2.takes es

theorem toList_ofList (l : List α) : (ofList l).toList = l := by
  simp [ofList, toList]

theorem length_toList (w : Walk α) : w.toList.length = w.remaining := by
  have := w.back_le_size
  simp only [toList, remaining, List.length_drop, List.length_take, Array.length_toList]
  omega

private theorem toList_of_done {w : Walk α} (h : ¬ w.front < w.back) : w.toList = [] :=
  List.eq_nil_of_length_eq_zero (by rw [length_toList, remaining]; omega)

/-- Taking at the front takes the first of what is left. -/
theorem take_front (w : Walk α) :
    (w.take .front).1 = w.toList.head? ∧ (w.take .front).2.toList = w.toList.tail := by
  have hs := w.back_le_size
  unfold take
  split
  · rename_i h
    constructor
    · simp [toList, List.head?_drop, h]
    · simp [toList]
  · rename_i h
    simp [toList_of_done h]

/-- Taking at the back takes the last of what is left. -/
theorem take_back (w : Walk α) :
    (w.take .back).1 = w.toList.getLast? ∧ (w.take .back).2.toList = w.toList.dropLast := by
  have hs := w.back_le_size
  unfold take
  split
  · rename_i h
    constructor
    · rw [List.getLast?_eq_getElem?, length_toList]
      have hi : w.front + (w.back - w.front - 1) = w.back - 1 := by omega
      have hb : w.back - 1 < w.back := by omega
      simp [toList, remaining, hi, hb]
    · have hi : min (w.front + (w.back - w.front - 1)) w.back = w.back - 1 := by omega
      rw [List.dropLast_eq_take, length_toList]
      simp only [toList, remaining, List.take_drop, List.take_take, hi]
  · rename_i h
    simp [toList_of_done h]

end Walk

namespace Tree

def recordWalk (t : Tree) : Walk Record :=
  .ofList t.records

def childWalk (t : Tree) (i : Nat) : Walk Nat :=
  .ofList (t.children i)

end Tree

end FlatSyntax

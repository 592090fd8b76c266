import FlatSyntax.Tree.Walk

namespace FlatSyntax

/-- The item of a list at a place that is counted from one end. -/
def End.nth? {α : Type} (e : End) (l : List α) (k : Nat) : Option α :=
  match e with
  | .front => l[k]?
  | .back => l.reverse[k]?

namespace Walk

variable {α : Type}

/-- The walk after a row of takes. -/
def after (w : Walk α) (es : List End) : Walk α :=
  es.foldl (fun w e => (w.take e).2) w

/-- The items that a row of takes has brought from one end, the first one first. -/
def taken (e : End) (es : List End) (answers : List (Option α × Nat)) : List α :=
  (es.zip answers).filterMap fun p => if p.1 = e then p.2.1 else none

/-- A walk that gives a list away. A take at an end brings the next item from there, counted by the
takes at that end before it, and leaves one item less, until there have been as many takes as there
are items. A take after that brings nothing. What has come from the front, what is left and what has
come from the back, read backwards, make up the list. -/
structure Serves (w : Walk α) (l : List α) : Prop where
  start : w.remaining = l.length
  length : ∀ es, (w.takes es).length = es.length
  item : ∀ es j e, es[j]? = some e → j < l.length →
    ∃ x, e.nth? l ((es.take j).count e) = some x ∧
      (w.takes es)[j]? = some (some x, l.length - (j + 1))
  done : ∀ es j, j < es.length → l.length ≤ j → (w.takes es)[j]? = some (none, 0)
  shared : ∀ es, ∃ left, left.length = l.length - es.length ∧
    taken .front es (w.takes es) ++ left ++ (taken .back es (w.takes es)).reverse = l

theorem remaining_take (w : Walk α) (e : End) : (w.take e).2.remaining = w.remaining - 1 := by
  unfold take
  split
  · cases e with
    | front => simp only [remaining]; omega
    | back => simp only [remaining]; omega
  · simp only [remaining]; omega

theorem take_front_append (w : Walk α) :
    (w.take .front).1.toList ++ (w.take .front).2.toList = w.toList := by
  obtain ⟨hitem, hleft⟩ := w.take_front
  rw [hitem, hleft]
  cases w.toList with
  | nil => rfl
  | cons x xs => rfl

theorem take_back_append (w : Walk α) :
    (w.take .back).2.toList ++ (w.take .back).1.toList = w.toList := by
  obtain ⟨hitem, hleft⟩ := w.take_back
  rw [hitem, hleft]
  rcases List.eq_nil_or_concat w.toList with hnil | ⟨xs, x, hconcat⟩
  · rw [hnil]
    rfl
  · rw [hconcat]
    simp

theorem isSome_take (w : Walk α) (e : End) (h : 0 < w.remaining) : (w.take e).1.isSome := by
  have hlt : w.front < w.back := Nat.lt_of_sub_pos h
  cases e with
  | front => simp [take, hlt]
  | back => simp [take, hlt]

theorem take_of_done {w : Walk α} (h : w.remaining = 0) (e : End) : (w.take e).1 = none := by
  have hnot : ¬ w.front < w.back := Nat.not_lt.mpr (Nat.le_of_sub_eq_zero h)
  simp [take, hnot]

theorem length_takes (w : Walk α) (es : List End) : (w.takes es).length = es.length := by
  induction es generalizing w with
  | nil => rfl
  | cons e es ih => rw [takes, List.length_cons, ih, List.length_cons]

theorem remaining_after (w : Walk α) (es : List End) :
    (w.after es).remaining = w.remaining - es.length := by
  induction es generalizing w with
  | nil => rfl
  | cons e es ih =>
    have hstep : w.after (e :: es) = (w.take e).2.after es := rfl
    rw [hstep, ih, remaining_take, List.length_cons]
    omega

theorem getElem?_takes (w : Walk α) {es : List End} {j : Nat} {e : End} (h : es[j]? = some e) :
    (w.takes es)[j]? = some (((w.after (es.take j)).take e).1, w.remaining - (j + 1)) := by
  induction es generalizing w j with
  | nil => simp at h
  | cons d es ih =>
    cases j with
    | zero =>
      obtain rfl : d = e := by simpa using h
      rw [takes, List.getElem?_cons_zero, remaining_take]
      rfl
    | succ j =>
      have hlater : es[j]? = some e := by simpa using h
      have hstep : w.after ((d :: es).take (j + 1)) = (w.take d).2.after (es.take j) := rfl
      have hcount : w.remaining - 1 - (j + 1) = w.remaining - (j + 1 + 1) := by omega
      rw [takes, List.getElem?_cons_succ, ih _ hlater, hstep, remaining_take, hcount]

theorem taken_cons_self (e : End) (es : List End) (a : Option α × Nat)
    (answers : List (Option α × Nat)) :
    taken e (e :: es) (a :: answers) = a.1.toList ++ taken e es answers := by
  obtain ⟨x, n⟩ := a
  cases x with
  | none => simp [taken]
  | some x => simp [taken]

theorem taken_cons_of_ne {e d : End} (h : d ≠ e) (es : List End) (a : Option α × Nat)
    (answers : List (Option α × Nat)) : taken e (d :: es) (a :: answers) = taken e es answers := by
  simp [taken, h]

/-- Nothing is taken twice and nothing is lost: each take moves one item from what is left to its end
of the list. -/
theorem taken_append (w : Walk α) (es : List End) :
    taken .front es (w.takes es) ++ (w.after es).toList ++
      (taken .back es (w.takes es)).reverse = w.toList := by
  induction es generalizing w with
  | nil => simp [taken, after]
  | cons e es ih =>
    have hstep : w.after (e :: es) = (w.take e).2.after es := rfl
    have hrest := ih (w.take e).2
    rw [takes, hstep]
    cases e with
    | front =>
      rw [taken_cons_self, taken_cons_of_ne (by decide)]
      calc
        _ = (w.take .front).1.toList ++ (taken .front es ((w.take .front).2.takes es) ++
              ((w.take .front).2.after es).toList ++
                (taken .back es ((w.take .front).2.takes es)).reverse) := by
          simp only [List.append_assoc]
        _ = (w.take .front).1.toList ++ (w.take .front).2.toList := by rw [hrest]
        _ = w.toList := w.take_front_append
    | back =>
      have hone : (w.take .back).1.toList.reverse = (w.take .back).1.toList := by
        cases (w.take .back).1 with
        | none => rfl
        | some x => rfl
      rw [taken_cons_self, taken_cons_of_ne (by decide), List.reverse_append, hone]
      calc
        _ = taken .front es ((w.take .back).2.takes es) ++ ((w.take .back).2.after es).toList ++
              (taken .back es ((w.take .back).2.takes es)).reverse ++
                (w.take .back).1.toList := by
          simp only [List.append_assoc]
        _ = (w.take .back).2.toList ++ (w.take .back).1.toList := by rw [hrest]
        _ = w.toList := w.take_back_append

/-- As long as there are items, each take brings one. -/
theorem length_taken {w : Walk α} {es : List End} (h : es.length ≤ w.remaining) (e : End) :
    (taken e es (w.takes es)).length = es.count e := by
  induction es generalizing w with
  | nil => rfl
  | cons d es ih =>
    rw [List.length_cons] at h
    have hrest : (taken e es ((w.take d).2.takes es)).length = es.count e := by
      apply ih
      rw [remaining_take]
      omega
    rw [takes]
    by_cases hd : d = e
    · obtain ⟨x, hx⟩ := Option.isSome_iff_exists.mp (w.isSome_take d (by omega))
      subst hd
      rw [taken_cons_self, List.length_append, hrest, hx, List.count_cons_self]
      exact Nat.add_comm 1 _
    · rw [taken_cons_of_ne hd, hrest, List.count_cons_of_ne hd]

/-- The next item at an end is the one whose place is the number of items taken from there. -/
theorem nth?_taken {w : Walk α} {es : List End} (h : es.length < w.remaining) (e : End) :
    e.nth? w.toList (es.count e) = ((w.after es).take e).1 := by
  have hparts := w.taken_append es
  rw [← length_taken (Nat.le_of_lt h) e]
  have hleft : (w.after es).toList ≠ [] := by
    intro hnil
    have hlength := (w.after es).length_toList
    rw [hnil, remaining_after, List.length_nil] at hlength
    omega
  cases e with
  | front =>
    rw [(w.after es).take_front.1, End.nth?, ← hparts]
    obtain ⟨x, xs, hcons⟩ := List.exists_cons_of_ne_nil hleft
    simp [hcons]
  | back =>
    rw [(w.after es).take_back.1, End.nth?, ← hparts]
    obtain ⟨xs, x, hconcat⟩ := (List.eq_nil_or_concat _).resolve_left hleft
    simp [hconcat]

theorem serves_toList (w : Walk α) : w.Serves w.toList := by
  constructor
  case start => exact w.length_toList.symm
  case length => exact w.length_takes
  case item =>
    intro es j e he hj
    rw [length_toList] at hj ⊢
    have hlength : (es.take j).length = j := by
      obtain ⟨hlt, -⟩ := List.getElem?_eq_some_iff.mp he
      rw [List.length_take]
      omega
    have hsome : ((w.after (es.take j)).take e).1.isSome := by
      apply isSome_take
      rw [remaining_after, hlength]
      omega
    obtain ⟨x, hx⟩ := Option.isSome_iff_exists.mp hsome
    refine ⟨x, ?_, ?_⟩
    · rw [nth?_taken (by rw [hlength]; exact hj), hx]
    · rw [w.getElem?_takes he, hx]
  case done =>
    intro es j hlt hj
    rw [length_toList] at hj
    have hdone : (w.after (es.take j)).remaining = 0 := by
      rw [remaining_after, List.length_take]
      omega
    have hnone : w.remaining - (j + 1) = 0 := by omega
    rw [w.getElem?_takes (List.getElem?_eq_getElem hlt), take_of_done hdone, hnone]
  case shared =>
    intro es
    refine ⟨(w.after es).toList, ?_, w.taken_append es⟩
    rw [length_toList, remaining_after, length_toList]

theorem serves_ofList (l : List α) : (ofList l).Serves l := by
  have h := (ofList l).serves_toList
  rwa [toList_ofList] at h

end Walk

end FlatSyntax

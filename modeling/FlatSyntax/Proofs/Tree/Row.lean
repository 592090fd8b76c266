import FlatSyntax.Proofs.Tree.Records

namespace FlatSyntax

theorem Record.touches_iff {r : Record} {o : Nat} :
    r.touches o = true ↔ r.start ≤ o ∧ o ≤ r.stop := by
  rw [touches, Bool.and_eq_true, decide_eq_true_eq, decide_eq_true_eq]

namespace Tree

/-- The leaves that an offset lies in or at an end of. -/
def touchedLeaves (t : Tree) (o : Nat) : List Nat :=
  t.leaves.filter fun i => (t.recordAt i).touches o

theorem mem_touchedLeaves_iff {t : Tree} {o i : Nat} :
    i ∈ t.touchedLeaves o ↔
      i ∈ t.leaves ∧ (t.recordAt i).start ≤ o ∧ o ≤ (t.recordAt i).stop := by
  rw [touchedLeaves, List.mem_filter, Record.touches_iff]

theorem pairwise_touchedLeaves (t : Tree) (o : Nat) : (t.touchedLeaves o).Pairwise (· < ·) :=
  (List.pairwise_lt_range.filter _).filter _

/-- A leaf is the only one touched if all that are touched are that one. -/
theorem touchedLeaves_eq_singleton_iff {t : Tree} {o l : Nat} :
    t.touchedLeaves o = [l] ↔ l ∈ t.touchedLeaves o ∧ ∀ m ∈ t.touchedLeaves o, m = l := by
  constructor
  · intro h
    rw [h]
    exact ⟨List.mem_singleton_self l, fun m hm => List.mem_singleton.mp hm⟩
  · intro h
    obtain ⟨hl, hall⟩ := h
    have hsorted := t.pairwise_touchedLeaves o
    cases hxs : t.touchedLeaves o with
    | nil =>
      rw [hxs] at hl
      simp at hl
    | cons x others =>
      rw [hxs] at hall hsorted
      have hx : x = l := hall x List.mem_cons_self
      have hnone : others = [] := by
        apply List.eq_nil_iff_forall_not_mem.mpr
        intro y hy
        have hlt := (List.pairwise_cons.mp hsorted).1 y hy
        have hyl := hall y (List.mem_cons_of_mem x hy)
        omega
      rw [hx, hnone]

/-- The nodes below the root are leaves in a row. None is inverted, and each one stands behind those
before it. -/
structure InRow (t : Tree) : Prop where
  leaf : ∀ i < t.rootIndex, i ∈ t.leaves
  ordered : ∀ i ∈ t.leaves, (t.recordAt i).start ≤ (t.recordAt i).stop
  apart : ∀ i ∈ t.leaves, ∀ j ∈ t.leaves, i < j → (t.recordAt i).stop ≤ (t.recordAt j).start

namespace InRow

variable {t : Tree} {o : Nat}

/-- Two leaves that an offset touches meet there. -/
theorem meet (h : t.InRow) {a b : Nat} (ha : a ∈ t.touchedLeaves o) (hb : b ∈ t.touchedLeaves o)
    (hab : a < b) : (t.recordAt a).stop = o ∧ (t.recordAt b).start = o := by
  obtain ⟨ha, -, hstop⟩ := mem_touchedLeaves_iff.mp ha
  obtain ⟨hb, hstart, -⟩ := mem_touchedLeaves_iff.mp hb
  have hle := h.apart a ha b hb hab
  omega

/-- A leaf that starts before an offset that touches it is the first one touched. -/
theorem head?_touchedLeaves (h : t.InRow) {l : Nat} (hl : l ∈ t.touchedLeaves o)
    (hstart : (t.recordAt l).start < o) : (t.touchedLeaves o).head? = some l := by
  have hsorted := t.pairwise_touchedLeaves o
  cases hxs : t.touchedLeaves o with
  | nil =>
    rw [hxs] at hl
    simp at hl
  | cons x others =>
    have hx : x ∈ t.touchedLeaves o := by simp [hxs]
    have hmem := hl
    rw [hxs] at hmem hsorted
    cases List.mem_cons.mp hmem with
    | inl heq => rw [heq, List.head?_cons]
    | inr hlater =>
      have hlt := (List.pairwise_cons.mp hsorted).1 l hlater
      have := (h.meet hx hl hlt).2
      omega

/-- The first two leaves that an offset touches meet there. -/
theorem meet_of_touchedLeaves (h : t.InRow) {a b : Nat} {others : List Nat}
    (hxs : t.touchedLeaves o = a :: b :: others) :
    a < b ∧ (t.recordAt a).stop = o ∧ (t.recordAt b).start = o := by
  have hsorted := t.pairwise_touchedLeaves o
  have ha : a ∈ t.touchedLeaves o := by simp [hxs]
  have hb : b ∈ t.touchedLeaves o := by simp [hxs]
  rw [hxs] at hsorted
  have hab : a < b := (List.pairwise_cons.mp hsorted).1 b (by simp)
  exact ⟨hab, h.meet ha hb hab⟩

/-- Where an offset touches more than two leaves, the second one is empty. -/
theorem empty_of_touchedLeaves (h : t.InRow) {a b c : Nat} {others : List Nat}
    (hxs : t.touchedLeaves o = a :: b :: c :: others) :
    (t.recordAt b).start = o ∧ (t.recordAt b).stop = o := by
  have hsorted := t.pairwise_touchedLeaves o
  have hb : b ∈ t.touchedLeaves o := by simp [hxs]
  have hc : c ∈ t.touchedLeaves o := by simp [hxs]
  rw [hxs] at hsorted
  have hbc : b < c := (List.pairwise_cons.mp hsorted.of_cons).1 c (by simp)
  exact ⟨(h.meet_of_touchedLeaves hxs).2.2, (h.meet hb hc hbc).1⟩

section Solid

variable (h : t.InRow) (hsolid : ∀ i ∈ t.leaves, (t.recordAt i).start < (t.recordAt i).stop)

include h hsolid

/-- No more than two leaves meet where none is empty. -/
theorem length_touchedLeaves_le (o : Nat) : (t.touchedLeaves o).length ≤ 2 := by
  match hxs : t.touchedLeaves o with
  | [] | [_] | [_, _] => simp
  | x :: y :: z :: others =>
    have hy : y ∈ t.touchedLeaves o := by simp [hxs]
    have hlt := hsolid y (mem_touchedLeaves_iff.mp hy).1
    have hempty := h.empty_of_touchedLeaves hxs
    omega

/-- Two leaves that meet at an offset are all that it touches. -/
theorem touchedLeaves_of_meet {l r : Nat} (hl : l ∈ t.leaves) (hr : r ∈ t.leaves)
    (hstop : (t.recordAt l).stop = o) (hstart : (t.recordAt r).start = o) :
    t.touchedLeaves o = [l, r] := by
  have hsolidl := hsolid l hl
  have hsolidr := hsolid r hr
  have hltouch : l ∈ t.touchedLeaves o := mem_touchedLeaves_iff.mpr ⟨hl, by omega, by omega⟩
  have hrtouch : r ∈ t.touchedLeaves o := mem_touchedLeaves_iff.mpr ⟨hr, by omega, by omega⟩
  have hne : r ≠ l := by
    intro heq
    rw [heq] at hstart
    omega
  have hhead := h.head?_touchedLeaves hltouch (by omega)
  have hfew := h.length_touchedLeaves_le hsolid o
  match hxs : t.touchedLeaves o with
  | [] => simp [hxs] at hhead
  | [x] =>
    have hx : x = l := by simpa [hxs] using hhead
    simp [hxs, hx, hne] at hrtouch
  | [x, y] =>
    have hx : x = l := by simpa [hxs] using hhead
    have hy : r = y := by simpa [hxs, hx, hne] using hrtouch
    rw [hx, hy]
  | x :: y :: z :: others => simp [hxs] at hfew

/-- Between two leaves that meet there is no room for a third. -/
theorem next_of_meet {l r : Nat} (hl : l ∈ t.leaves) (hr : r ∈ t.leaves) (hlt : l < r)
    (hmeet : (t.recordAt l).stop = (t.recordAt r).start) : r = l + 1 := by
  apply Classical.byContradiction
  intro hne
  have hroot := lt_rootIndex_of_mem_leaves hr
  have hm := h.leaf (l + 1) (by omega)
  have hbefore := h.apart l hl (l + 1) hm (by omega)
  have hbehind := h.apart (l + 1) hm r hr (by omega)
  have hlong := hsolid (l + 1) hm
  omega

end Solid

end InRow

section OfTokens

variable {text : Text} {tokens : List Token}

theorem exists_token_of_mem_leaves_ofTokens {i : Nat} (h : i ∈ (ofTokens text tokens).leaves) :
    ∃ u, tokens[i]? = some u ∧ (ofTokens text tokens).recordAt i = leafRecord u := by
  have hi := mem_leaves_ofTokens_iff.mp h
  exact ⟨tokens[i], List.getElem?_eq_getElem hi, recordAt_ofTokens text hi⟩

theorem inRow_ofTokens (h : WellFormed text tokens) : (ofTokens text tokens).InRow := by
  constructor
  case leaf =>
    intro i hi
    rw [rootIndex_ofTokens] at hi
    exact mem_leaves_ofTokens_iff.mpr hi
  case ordered =>
    intro i hi
    obtain ⟨u, -, hu⟩ := exists_token_of_mem_leaves_ofTokens hi
    rw [hu]
    exact u.span.ordered
  case apart =>
    intro i hi j hj hij
    have hi := mem_leaves_ofTokens_iff.mp hi
    have hj := mem_leaves_ofTokens_iff.mp hj
    rw [recordAt_ofTokens text hi, recordAt_ofTokens text hj]
    exact List.pairwise_iff_getElem.mp h.apart i j hi hj hij

end OfTokens

end Tree

end FlatSyntax

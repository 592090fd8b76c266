import FlatSyntax.Proofs.Lexer.Scan
import FlatSyntax.Proofs.Tree.Row
import FlatSyntax.Proofs.Tree.Touching

namespace FlatSyntax

namespace Touching

variable {α : Type} {xs : List α}

theorem ofList_eq_none_iff : ofList xs = none ↔ xs = [] := by
  cases xs with
  | nil => simp [ofList]
  | cons x xs => cases xs <;> simp [ofList]

theorem ofList_eq_single_iff {x : α} : ofList xs = single x ↔ xs = [x] := by
  cases xs with
  | nil => simp [ofList]
  | cons y xs => cases xs <;> simp [ofList]

theorem ofList_eq_between_iff {x y : α} :
    ofList xs = between x y ↔ ∃ others, xs = x :: y :: others := by
  cases xs with
  | nil => simp [ofList]
  | cons z xs => cases xs <;> simp [ofList]

theorem preferLeft_ofList (xs : List α) : (ofList xs).preferLeft = xs.head? := by
  cases xs with
  | nil => rfl
  | cons x xs => cases xs <;> rfl

end Touching

namespace Tree

/-- What is found at an offset are the leaves that it touches, of which there are at most two. Two
of them are neighbours that meet there. -/
structure ExactAt (t : Tree) (o : Nat) : Prop where
  few : (t.touchedLeaves o).length ≤ 2
  none_iff : t.touching t.rootIndex o = .none ↔
    ∀ l ∈ t.leaves, ¬ ((t.recordAt l).start ≤ o ∧ o ≤ (t.recordAt l).stop)
  single_iff : ∀ l, t.touching t.rootIndex o = .single l ↔
    (l ∈ t.leaves ∧ (t.recordAt l).start ≤ o ∧ o ≤ (t.recordAt l).stop) ∧
      ∀ m ∈ t.leaves, (t.recordAt m).start ≤ o → o ≤ (t.recordAt m).stop → m = l
  between_iff : ∀ l r, t.touching t.rootIndex o = .between l r ↔
    l ∈ t.leaves ∧ r ∈ t.leaves ∧ (t.recordAt l).stop = o ∧ (t.recordAt r).start = o
  next : ∀ l r, t.touching t.rootIndex o = .between l r → r = l + 1

namespace InRow

variable {t : Tree} {o : Nat}

/-- The leaf that goes on behind an offset is preferred exactly if no more than two are touched. -/
theorem preferRight_ofList_iff (h : t.InRow) {l : Nat} (hl : l ∈ t.touchedLeaves o)
    (hstop : o < (t.recordAt l).stop) :
    (Touching.ofList (t.touchedLeaves o)).preferRight = some l ↔
      (t.touchedLeaves o).length ≤ 2 := by
  match hxs : t.touchedLeaves o with
  | [] =>
    rw [hxs] at hl
    simp at hl
  | [x] =>
    rw [hxs] at hl
    simp [Touching.ofList, Touching.preferRight, List.mem_singleton.mp hl]
  | [x, y] =>
    have hmeet := (h.meet_of_touchedLeaves hxs).2.1
    have hne : l ≠ x := by
      intro heq
      rw [heq] at hstop
      omega
    rw [hxs] at hl
    have hy : l = y := List.mem_singleton.mp ((List.mem_cons.mp hl).resolve_left hne)
    simp [Touching.ofList, Touching.preferRight, hy]
  | x :: y :: z :: others =>
    have hempty := (h.empty_of_touchedLeaves hxs).2
    have hne : y ≠ l := by
      intro heq
      rw [heq] at hempty
      omega
    simp [Touching.ofList, Touching.preferRight, hne]

/-- Leaves in a row, none of them empty, are found as they are touched if the search is told all
that are touched. -/
theorem exactAt (h : t.InRow)
    (hsolid : ∀ i ∈ t.leaves, (t.recordAt i).start < (t.recordAt i).stop)
    (hfound : t.touching t.rootIndex o = .ofList (t.touchedLeaves o)) : t.ExactAt o := by
  have hbetween : ∀ l r, t.touching t.rootIndex o = .between l r →
      l ∈ t.leaves ∧ r ∈ t.leaves ∧ l < r ∧ (t.recordAt l).stop = o ∧ (t.recordAt r).start = o := by
    intro l r hlr
    rw [hfound] at hlr
    obtain ⟨others, hxs⟩ := Touching.ofList_eq_between_iff.mp hlr
    have hl : l ∈ t.touchedLeaves o := by simp [hxs]
    have hr : r ∈ t.touchedLeaves o := by simp [hxs]
    exact ⟨(mem_touchedLeaves_iff.mp hl).1, (mem_touchedLeaves_iff.mp hr).1,
      h.meet_of_touchedLeaves hxs⟩
  constructor
  case few => exact h.length_touchedLeaves_le hsolid o
  case none_iff =>
    rw [hfound, Touching.ofList_eq_none_iff, touchedLeaves, List.filter_eq_nil_iff]
    simp only [Record.touches_iff]
  case single_iff =>
    intro l
    rw [hfound, Touching.ofList_eq_single_iff, touchedLeaves_eq_singleton_iff]
    simp only [mem_touchedLeaves_iff, and_imp]
  case between_iff =>
    intro l r
    constructor
    · intro hlr
      obtain ⟨hl, hr, -, hstop, hstart⟩ := hbetween l r hlr
      exact ⟨hl, hr, hstop, hstart⟩
    · intro hmeet
      obtain ⟨hl, hr, hstop, hstart⟩ := hmeet
      rw [hfound, h.touchedLeaves_of_meet hsolid hl hr hstop hstart]
      rfl
  case next =>
    intro l r hlr
    obtain ⟨hl, hr, hlt, hstop, hstart⟩ := hbetween l r hlr
    exact h.next_of_meet hsolid hl hr hlt (hstop.trans hstart.symm)

end InRow

/-- As long as the root's size fits, the first two leaves that the offset touches are found. -/
theorem touching_ofTokens {text : Text} {tokens : List Token}
    (h : ∀ u ∈ tokens, u.span.stop ≤ text.size) (hne : tokens ≠ [])
    (hlen : tokens.length < leafLimit) (o : Nat) :
    (ofTokens text tokens).touching (ofTokens text tokens).rootIndex o =
      .ofList ((ofTokens text tokens).touchedLeaves o) := by
  have hchildren : (ofTokens text tokens).touchedChildren (ofTokens text tokens).rootIndex o =
      (ofTokens text tokens).touchedLeaves o := by
    rw [touchedChildren, children_rootIndex_ofTokens text hlen, touchedLeaves]
  by_cases ho : o ≤ text.size
  · have hpos := List.length_pos_iff.mpr hne
    have hsize : tokens.length % (leafLimit + 1) ≠ 0 := by
      rw [Nat.mod_eq_of_lt (by omega)]
      omega
    rw [touching_of_root ho hsize, hchildren]
  · have hnone : (ofTokens text tokens).touchedLeaves o = [] := by
      apply List.eq_nil_iff_forall_not_mem.mpr
      intro i hi
      obtain ⟨hleaf, -, hstop⟩ := mem_touchedLeaves_iff.mp hi
      obtain ⟨u, hget, hu⟩ := exists_token_of_mem_leaves_ofTokens hleaf
      rw [hu] at hstop
      exact ho (Nat.le_trans hstop (h u (List.mem_of_getElem? hget)))
    rw [touching_past_end (Nat.not_le.mp ho), hnone]
    rfl

/-- The tree of any stream finds the first two leaves that an offset touches. -/
theorem touching_build {text : Text} {tokens : List Token} (hne : tokens ≠ [])
    (hlen : tokens.length < leafLimit) (o : Nat) :
    (build text tokens).touching (build text tokens).rootIndex o =
      .ofList ((build text tokens).touchedLeaves o) := by
  have hlength := Token.length_normalize text tokens
  have hw := Token.wellFormed_normalize text tokens
  have hpos := List.length_pos_iff.mpr hne
  exact touching_ofTokens hw.inside (List.length_pos_iff.mp (by omega)) (by omega) o

/-- The leaf that an offset lies in, or at the end of, is the one preferred on the left. The leaf
that goes on behind it is preferred on the right unless two others are touched before that one. An
empty leaf is found in its place then. -/
theorem build_preferred_leaves (text : Text) (tokens : List Token)
    (hlen : tokens.length < leafLimit) (o : Nat) :
    let t := build text tokens
    let found := t.touching t.rootIndex o
    (∀ l ∈ t.leaves, (t.recordAt l).start < o → o ≤ (t.recordAt l).stop →
        found.preferLeft = some l) ∧
      ∀ l ∈ t.leaves, (t.recordAt l).start ≤ o → o < (t.recordAt l).stop →
        (found.preferRight = some l ↔ (t.touchedLeaves o).length ≤ 2) ∧
          (2 < (t.touchedLeaves o).length → ∃ e ∈ t.leaves, found.preferRight = some e ∧
            (t.recordAt e).start = o ∧ (t.recordAt e).stop = o) := by
  intro t found
  have hrow : t.InRow := inRow_ofTokens (Token.wellFormed_normalize text tokens)
  have hfound : ∀ l ∈ t.leaves, found = .ofList (t.touchedLeaves o) := by
    intro l hl
    have hpos := List.length_pos_of_mem hl
    rw [length_leaves_build] at hpos
    exact touching_build (List.length_pos_iff.mp hpos) hlen o
  constructor
  · intro l hl hstart hstop
    have htouch : l ∈ t.touchedLeaves o := mem_touchedLeaves_iff.mpr ⟨hl, by omega, hstop⟩
    rw [hfound l hl, Touching.preferLeft_ofList]
    exact hrow.head?_touchedLeaves htouch hstart
  · intro l hl hstart hstop
    have htouch : l ∈ t.touchedLeaves o := mem_touchedLeaves_iff.mpr ⟨hl, hstart, by omega⟩
    rw [hfound l hl]
    refine ⟨hrow.preferRight_ofList_iff htouch hstop, ?_⟩
    intro hmany
    match hxs : t.touchedLeaves o with
    | [] | [_] | [_, _] => simp [hxs] at hmany
    | x :: y :: z :: others =>
      have hy : y ∈ t.touchedLeaves o := by simp [hxs]
      exact ⟨y, (mem_touchedLeaves_iff.mp hy).1, rfl, hrow.empty_of_touchedLeaves hxs⟩

/-- Without empty leaves both neighbours of an offset are found. -/
theorem neighbours_preferred :
    let t := build ['a', 'b'] [⟨.ident, ⟨0, 1, by decide⟩⟩, ⟨.error, ⟨1, 2, by decide⟩⟩]
    2 < leafLimit ∧ (t.touching t.rootIndex 1).preferLeft = some 0 ∧
      (t.touching t.rootIndex 1).preferRight = some 1 := by
  intro t
  have hpreferred := build_preferred_leaves ['a', 'b']
    [⟨.ident, ⟨0, 1, by decide⟩⟩, ⟨.error, ⟨1, 2, by decide⟩⟩] (by decide) 1
  have hleft := hpreferred.1 0 (by decide) (by decide) (by decide)
  have hright := (hpreferred.2 1 (by decide) (by decide) (by decide)).1.mpr (by decide)
  exact ⟨by decide, hleft, hright⟩

/-- An empty leaf between two others hides the second of them. -/
theorem empty_leaf_preferred :
    let tokens := [⟨.ident, ⟨0, 1, by decide⟩⟩, ⟨.error, ⟨1, 1, by decide⟩⟩,
      ⟨.ident, ⟨1, 2, by decide⟩⟩]
    let t := build ['a', 'b'] tokens
    validate ['a', 'b'] tokens = .ok () ∧
      2 ∈ t.leaves ∧ (t.recordAt 2).start ≤ 1 ∧ 1 < (t.recordAt 2).stop ∧
      (t.touching t.rootIndex 1).preferRight = some 1 := by
  intro tokens t
  have hfound : t.touching t.rootIndex 1 = .ofList (t.touchedLeaves 1) :=
    touching_build (by decide) (by decide) 1
  rw [hfound]
  exact ⟨rfl, by decide, by decide, by decide, by decide⟩

/-- Offsets are looked up exactly in the tree of a valid stream without empty tokens, of which the
tokens of a text are one. -/
theorem build_exactAt (text : Text) :
    (∀ tokens, tokens ≠ [] → validate text tokens = .ok () →
        (∀ u ∈ tokens, u.span.start < u.span.stop) → tokens.length < leafLimit →
        ∀ o, (build text tokens).ExactAt o) ∧
      (tokenize text ≠ [] → (tokenize text).length < leafLimit →
        ∀ o, (build text (tokenize text)).ExactAt o) := by
  have hexact : ∀ tokens, tokens ≠ [] → validate text tokens = .ok () →
      (∀ u ∈ tokens, u.span.start < u.span.stop) → tokens.length < leafLimit →
      ∀ o, (build text tokens).ExactAt o := by
    intro tokens hne hvalid hsolid hlen o
    have hw := validate_eq_ok_iff.mp hvalid
    have hfound : (build text tokens).touching (build text tokens).rootIndex o =
        .ofList ((build text tokens).touchedLeaves o) := touching_build hne hlen o
    rw [build_eq_ofTokens hw] at hfound ⊢
    apply (inRow_ofTokens hw).exactAt _ hfound
    intro i hi
    obtain ⟨u, hget, hu⟩ := exists_token_of_mem_leaves_ofTokens hi
    rw [hu]
    exact hsolid u (List.mem_of_getElem? hget)
  refine ⟨hexact, ?_⟩
  intro hne hlen
  have hscan := scan_tokenize text
  have hvalid : validate text (tokenize text) = .ok () := validate_eq_ok_iff.mpr hscan.wellFormed
  exact hexact (tokenize text) hne hvalid hscan.start_lt_stop hlen

/-- Between two tokens the offset where they meet finds both. -/
theorem exactAt_meeting :
    let tokens := [⟨.ident, ⟨0, 1, by decide⟩⟩, ⟨.assign, ⟨1, 2, by decide⟩⟩]
    let t := build ['a', '='] tokens
    validate ['a', '='] tokens = .ok () ∧ tokens.length < leafLimit ∧ t.ExactAt 1 ∧
      t.touching t.rootIndex 1 = .between 0 1 := by
  intro tokens t
  have hexact := (build_exactAt ['a', '=']).1 tokens (by decide) rfl (by decide) (by decide) 1
  have hmeet := (hexact.between_iff 0 1).mpr (by decide)
  exact ⟨rfl, by decide, hexact, hmeet⟩

end Tree

end FlatSyntax

import FlatSyntax.Proofs.Tree.Consumers

namespace FlatSyntax

/-- Two spans meet if neither ends before the other starts. -/
theorem Span.isSome_meet?_iff {r s : Span} :
    (r.meet? s).isSome = true ↔ r.start ≤ s.stop ∧ s.start ≤ r.stop := by
  have hr := r.ordered
  have hs := s.ordered
  have hle : max r.start s.start ≤ min r.stop s.stop ↔ r.start ≤ s.stop ∧ s.start ≤ r.stop := by
    omega
  rw [meet?, ofBounds?]
  split
  · rename_i h
    simp [hle.mp h]
  · rename_i h
    simp [hle.not.mp h]

namespace Highlight

/-- Whether a highlight shares a stretch with a range or touches it. -/
def isSeenIn (range : Span) (h : Highlight) : Bool :=
  (h.span.meet? range).isSome

theorem isSeenIn_iff {range : Span} {h : Highlight} :
    h.isSeenIn range = true ↔ h.span.start ≤ range.stop ∧ range.start ≤ h.span.stop :=
  Span.isSome_meet?_iff

/-- In a row of highlights, those that start no later than a cut come before the others. -/
theorem filter_append_filter_of_sorted {hs : List Highlight}
    (h : hs.Pairwise fun f g => f.span.start ≤ g.span.start) (b : Nat) :
    hs.filter (fun g => g.span.start ≤ b) ++ hs.filter (fun g => b < g.span.start) = hs := by
  induction hs with
  | nil => rfl
  | cons f hs ih =>
    obtain ⟨hfirst, hrest⟩ := List.pairwise_cons.mp h
    by_cases hf : f.span.start ≤ b
    · rw [List.filter_cons_of_pos (by simpa using hf), List.filter_cons_of_neg (by simpa using hf),
        List.cons_append, ih hrest]
    · have hnone : hs.filter (fun g => g.span.start ≤ b) = [] := by
        apply List.filter_eq_nil_iff.mpr
        intro g hg
        have := hfirst g hg
        rw [decide_eq_true_eq]
        omega
      have hall := ih hrest
      rw [hnone, List.nil_append] at hall
      rw [List.filter_cons_of_neg (by simpa using hf), List.filter_cons_of_pos (by simpa using hf),
        hnone, List.nil_append, hall]

/-- What is seen in a range is what is seen before a cut, and what is seen behind it and starts
there. -/
theorem filter_isSeenIn_tiles {hs : List Highlight}
    (h : hs.Pairwise fun f g => f.span.start ≤ g.span.start) {a b c : Nat} (hab : a ≤ b)
    (hbc : b ≤ c) :
    hs.filter (isSeenIn ⟨a, c, Nat.le_trans hab hbc⟩) =
      hs.filter (isSeenIn ⟨a, b, hab⟩) ++
        (hs.filter (isSeenIn ⟨b, c, hbc⟩)).filter fun g => b < g.span.start := by
  have hcut := filter_append_filter_of_sorted h b
  have hbefore (g : Highlight) :
      (g.isSeenIn ⟨a, c, Nat.le_trans hab hbc⟩ && decide (g.span.start ≤ b)) =
        g.isSeenIn ⟨a, b, hab⟩ := by
    rw [Bool.eq_iff_iff, Bool.and_eq_true, decide_eq_true_eq, isSeenIn_iff, isSeenIn_iff]
    dsimp only
    omega
  have hbehind (g : Highlight) :
      (g.isSeenIn ⟨a, c, Nat.le_trans hab hbc⟩ && decide (b < g.span.start)) =
        (decide (b < g.span.start) && g.isSeenIn ⟨b, c, hbc⟩) := by
    have hordered := g.span.ordered
    rw [Bool.eq_iff_iff, Bool.and_eq_true, Bool.and_eq_true, decide_eq_true_eq, isSeenIn_iff,
      isSeenIn_iff]
    dsimp only
    omega
  conv_lhs => rw [← hcut]
  rw [List.filter_append, List.filter_filter, List.filter_filter, List.filter_filter]
  simp only [hbefore, hbehind]

end Highlight

namespace Tree

/-- What is highlighted in a range are the highlights of the tree that are seen in it. -/
theorem highlightIn_build (text : Text) (tokens : List Token) (range : Span) :
    (build text tokens).highlightIn range =
      (build text tokens).highlight.filter (Highlight.isSeenIn range) := by
  have hall : (build text tokens).highlight = _ :=
    highlight_ofTokens (Token.wellFormed_normalize text tokens).inside
  rw [hall, build, highlightIn_ofTokens, List.filterMap_filter, List.filter_filterMap]
  apply List.filterMap_congr
  intro u _
  cases hu : u.highlight? with
  | none => simp
  | some h =>
    have hspan : h.span = u.span := (Token.highlight?_eq_some_iff.mp hu).2
    rw [Option.filter_some, Highlight.isSeenIn, hspan]

theorem sorted_highlight_build (text : Text) (tokens : List Token) :
    (build text tokens).highlight.Pairwise fun g h => g.span.start ≤ h.span.start :=
  (consumed_ofTokens (Token.wellFormed_normalize text tokens)).highlightsInOrder

theorem stop_le_of_mem_highlight_build {text : Text} {tokens : List Token} {h : Highlight}
    (hmem : h ∈ (build text tokens).highlight) : h.span.stop ≤ text.size := by
  have hw := Token.wellFormed_normalize text tokens
  have hall : (build text tokens).highlight = _ := highlight_ofTokens hw.inside
  rw [hall] at hmem
  obtain ⟨u, hu, hsome⟩ := List.mem_filterMap.mp hmem
  rw [(Token.highlight?_eq_some_iff.mp hsome).2]
  exact hw.inside u hu

/-- A document can be highlighted part by part. Nothing is lost or moved at a cut, and what is seen
on both sides of it are the highlights that reach it. A range around the whole document shows all
highlights. -/
theorem build_highlightIn_tiles (text : Text) (tokens : List Token) {a b c : Nat} (hab : a ≤ b)
    (hbc : b ≤ c) :
    let t := build text tokens
    t.highlightIn ⟨a, c, Nat.le_trans hab hbc⟩ =
        t.highlightIn ⟨a, b, hab⟩ ++
          (t.highlightIn ⟨b, c, hbc⟩).filter (fun h => b < h.span.start) ∧
      (∀ h, h ∈ t.highlightIn ⟨a, b, hab⟩ ∧ h ∈ t.highlightIn ⟨b, c, hbc⟩ ↔
        h ∈ t.highlight ∧ h.span.start ≤ b ∧ b ≤ h.span.stop) ∧
      ∀ range : Span, range.start = 0 → text.size ≤ range.stop →
        t.highlightIn range = t.highlight := by
  intro t
  have hseen (range : Span) : t.highlightIn range = t.highlight.filter (·.isSeenIn range) :=
    highlightIn_build text tokens range
  refine ⟨?_, ?_, ?_⟩
  · rw [hseen, hseen, hseen]
    exact Highlight.filter_isSeenIn_tiles (sorted_highlight_build text tokens) hab hbc
  · intro h
    rw [hseen, hseen, List.mem_filter, List.mem_filter, Highlight.isSeenIn_iff,
      Highlight.isSeenIn_iff]
    dsimp only
    constructor
    · intro hboth
      obtain ⟨⟨hmem, hleft, -⟩, -, -, hright⟩ := hboth
      exact ⟨hmem, hleft, hright⟩
    · intro hreach
      obtain ⟨hmem, hleft, hright⟩ := hreach
      exact ⟨⟨hmem, hleft, by omega⟩, hmem, by omega, hright⟩
  · intro range hstart hstop
    rw [hseen]
    apply List.filter_eq_self.mpr
    intro h hmem
    have hinside := stop_le_of_mem_highlight_build hmem
    have hordered := h.span.ordered
    rw [Highlight.isSeenIn_iff]
    omega

/-- At a cut through an empty leaf the leaves on both sides of it are seen twice, and the last one
once. -/
theorem highlightIn_around_empty_leaf :
    let t := build ['a', 'b', 'c'] [⟨.ident, ⟨0, 1, by decide⟩⟩, ⟨.string, ⟨1, 1, by decide⟩⟩,
      ⟨.number, ⟨1, 2, by decide⟩⟩, ⟨.ident, ⟨2, 3, by decide⟩⟩]
    (0 ≤ 1 ∧ 1 ≤ 3) ∧
      t.highlightIn ⟨0, 3, by decide⟩ =
        t.highlightIn ⟨0, 1, by decide⟩ ++ [⟨⟨2, 3, by decide⟩, .variableName⟩] ∧
      (t.highlightIn ⟨1, 3, by decide⟩).length = 4 := by
  intro t
  have htiles := (build_highlightIn_tiles ['a', 'b', 'c']
    [⟨.ident, ⟨0, 1, by decide⟩⟩, ⟨.string, ⟨1, 1, by decide⟩⟩, ⟨.number, ⟨1, 2, by decide⟩⟩,
      ⟨.ident, ⟨2, 3, by decide⟩⟩] (a := 0) (b := 1) (c := 3) (by decide) (by decide)).1
  refine ⟨by decide, htiles.trans ?_, by decide⟩
  decide

end Tree

end FlatSyntax

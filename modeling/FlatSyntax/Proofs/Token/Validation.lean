import FlatSyntax.Proofs.Text.Slice
import FlatSyntax.Token.Stream

namespace FlatSyntax

namespace Token

/-- The token lies in the text on character boundaries. -/
def Placed (text : Text) (t : Token) : Prop :=
  text.isBoundary t.span.start = true ∧ text.isBoundary t.span.stop = true

theorem Placed.inside {text : Text} {t : Token} (h : t.Placed text) :
    t.span.stop ≤ text.size :=
  Text.le_size_of_isBoundary h.2

theorem Placed.exists_slice? {text : Text} {t : Token} (h : t.Placed text) :
    ∃ m, t.span.slice? text = some m :=
  Text.exists_slice? h.1 h.2 t.span.ordered

/-- Nothing is wrong with a placed token that starts after the end of the previous one. -/
theorem defect?_eq_none_iff {text : Text} {previous : Option Span} {t : Token} :
    t.defect? text previous = none ↔
      t.Placed text ∧ ∀ p ∈ previous, p.stop ≤ t.span.start := by
  unfold defect?
  constructor
  · intro h
    split at h
    · simp at h
    split at h
    · simp at h
    rename_i hb
    have hp : t.Placed text := by simpa [Placed] using hb
    refine ⟨hp, ?_⟩
    intro p hm
    subst hm
    simp only [Option.bind_some] at h
    split at h
    · simp at h
    split at h
    · simp at h
    · omega
  · rintro ⟨hp, hs⟩
    have hi : ¬ text.size < t.span.stop := Nat.not_lt.mpr hp.inside
    have hb : (!(text.isBoundary t.span.start && text.isBoundary t.span.stop)) = false := by
      simp [hp.1, hp.2]
    rw [if_neg hi, hb]
    cases previous with
    | none => rfl
    | some p =>
      have hstop := hs p rfl
      have hord := p.ordered
      rw [if_neg Bool.false_ne_true, Option.bind_some, if_neg (by omega), if_neg (by omega)]

end Token

/-- A stream is well formed when its tokens are placed, each after the ones before it. -/
theorem wellFormed_iff {text : Text} {tokens : List Token} :
    WellFormed text tokens ↔
      (∀ t ∈ tokens, t.Placed text) ∧
        tokens.Pairwise fun s t => s.span.stop ≤ t.span.start :=
  ⟨fun h => ⟨h.aligned, h.apart⟩, fun h => ⟨fun t ht => (h.1 t ht).inside, h.1, h.2⟩⟩

theorem wellFormed_cons {text : Text} {t : Token} {ts : List Token} :
    WellFormed text (t :: ts) ↔
      t.Placed text ∧ (∀ u ∈ ts, t.span.stop ≤ u.span.start) ∧ WellFormed text ts := by
  rw [wellFormed_iff, wellFormed_iff, List.forall_mem_cons, List.pairwise_cons]
  constructor
  · intro h
    obtain ⟨⟨hp, hts⟩, hlater, hapart⟩ := h
    exact ⟨hp, hlater, hts, hapart⟩
  · intro h
    obtain ⟨hp, hlater, hts, hapart⟩ := h
    exact ⟨⟨hp, hts⟩, hlater, hapart⟩

theorem WellFormed.sorted {text : Text} {tokens : List Token} (h : WellFormed text tokens) :
    tokens.Pairwise fun s t => s.span.start ≤ t.span.start := by
  apply h.apart.imp
  intro s t hst
  have := s.span.ordered
  omega

/-- No part of a well-formed stream is malformed. -/
theorem WellFormed.sublist {text : Text} {ts us : List Token} (h : WellFormed text us)
    (hs : ts.Sublist us) : WellFormed text ts :=
  wellFormed_iff.mpr ⟨fun t ht => h.aligned t (hs.subset ht), h.apart.sublist hs⟩

/-- No two tokens share a byte. -/
theorem WellFormed.eq_of_overlap {text : Text} {tokens : List Token} (h : WellFormed text tokens)
    {s t : Token} (hs : s ∈ tokens) (ht : t ∈ tokens) {o : Nat}
    (hso : s.span.start ≤ o ∧ o < s.span.stop) (hto : t.span.start ≤ o ∧ o < t.span.stop) :
    s = t := by
  obtain ⟨i, hi, rfl⟩ := List.getElem_of_mem hs
  obtain ⟨j, hj, rfl⟩ := List.getElem_of_mem ht
  have hapart := List.pairwise_iff_getElem.mp h.apart
  rcases Nat.lt_trichotomy i j with hlt | rfl | hgt
  · have := hapart i j hi hj hlt
    omega
  · rfl
  · have := hapart j i hj hi hgt
    omega

/-- Only neighbours are compared. The token in between carries the order on. -/
theorem validateFrom_eq_ok_iff {text : Text} {index : Nat} {previous : Option Span}
    {tokens : List Token} :
    validateFrom text index previous tokens = .ok () ↔
      WellFormed text tokens ∧ ∀ p ∈ previous, ∀ t ∈ tokens, p.stop ≤ t.span.start := by
  induction tokens generalizing index previous with
  | nil =>
    have hw : WellFormed text [] := ⟨by simp, by simp, List.Pairwise.nil⟩
    simp [validateFrom, hw]
  | cons t ts ih =>
    rw [wellFormed_cons]
    simp only [validateFrom]
    constructor
    · intro h
      split at h
      · simp at h
      rename_i hd
      obtain ⟨hp, hprev⟩ := Token.defect?_eq_none_iff.mp hd
      obtain ⟨hw, hrest⟩ := ih.mp h
      have hlater : ∀ u ∈ ts, t.span.stop ≤ u.span.start := hrest t.span rfl
      refine ⟨⟨hp, hlater, hw⟩, ?_⟩
      intro p hm u hu
      have hle := hprev p hm
      rcases List.mem_cons.mp hu with rfl | hu
      · exact hle
      · have := hlater u hu
        have := t.span.ordered
        omega
    · intro h
      obtain ⟨⟨hp, hlater, hw⟩, hprev⟩ := h
      have hd : t.defect? text previous = none := by
        apply Token.defect?_eq_none_iff.mpr
        exact ⟨hp, fun p hm => hprev p hm t (by simp)⟩
      rw [hd]
      refine ih.mpr ⟨hw, ?_⟩
      intro p hm
      cases hm
      exact hlater

/-- The check of neighbours accepts exactly the streams that are well formed as a whole. -/
theorem validate_eq_ok_iff {text : Text} {tokens : List Token} :
    validate text tokens = .ok () ↔ WellFormed text tokens := by
  rw [validate, validateFrom_eq_ok_iff]
  simp

/-- The stretches before, between and after spans that stand one after the other. -/
def Span.gaps (start size : Nat) : List Span → List (Nat × Nat)
  | [] => [(start, size)]
  | s :: ss => (start, s.start) :: gaps s.stop size ss

/-- Two rows of texts put together in turn, beginning with the first row. -/
def Text.weave : List Text → List Text → Text
  | x :: xs, y :: ys => x ++ y ++ weave xs ys
  | xs, _ => xs.flatten

/-- From a boundary on, a text is the gaps around placed tokens and the texts of the tokens. -/
private theorem exists_weave_from {text : Text} {tokens : List Token} {start : Nat}
    (hs : text.isBoundary start = true) (hp : ∀ t ∈ tokens, t.Placed text)
    (ha : tokens.Pairwise fun s t => s.span.stop ≤ t.span.start)
    (hle : ∀ t ∈ tokens, start ≤ t.span.start) :
    ∃ gaps parts,
      (Span.gaps start text.size (tokens.map Token.span)).map (fun g => text.slice? g.1 g.2) =
        gaps.map some ∧
      tokens.map (fun t => t.span.slice? text) = parts.map some ∧
      text.slice? start text.size = some (Text.weave gaps parts) := by
  induction tokens generalizing start with
  | nil =>
    have hsize := Text.le_size_of_isBoundary hs
    obtain ⟨m, hm⟩ := Text.exists_slice? hs text.isBoundary_size hsize
    exact ⟨[m], [], by simp [Span.gaps, hm], by simp, by simp [Text.weave, hm]⟩
  | cons t ts ih =>
    obtain ⟨hlater, hapart⟩ := List.pairwise_cons.mp ha
    have ht := hp t (by simp)
    have hts : ∀ u ∈ ts, u.Placed text := fun u hu => hp u (List.mem_cons_of_mem t hu)
    obtain ⟨gaps, parts, hg, hparts, hrest⟩ := ih ht.2 hts hapart hlater
    obtain ⟨g, hgap⟩ := Text.exists_slice? hs ht.1 (hle t (by simp))
    obtain ⟨m, hpart⟩ := ht.exists_slice?
    refine ⟨g :: gaps, m :: parts, ?_, ?_, ?_⟩
    · simp [Span.gaps, hgap, hg]
    · simp [hpart, hparts]
    · exact Text.slice?_append (Text.slice?_append hgap hpart) hrest

/-- The gaps around the tokens of a well-formed stream and the texts of the tokens make up the
document. -/
theorem WellFormed.exists_weave {text : Text} {tokens : List Token} (h : WellFormed text tokens) :
    ∃ gaps parts,
      (Span.gaps 0 text.size (tokens.map Token.span)).map (fun g => text.slice? g.1 g.2) =
        gaps.map some ∧
      tokens.map (fun t => t.span.slice? text) = parts.map some ∧
      Text.weave gaps parts = text := by
  obtain ⟨gaps, parts, hg, hp, hw⟩ :=
    exists_weave_from text.isBoundary_zero h.aligned h.apart (fun t _ => Nat.zero_le _)
  rw [Text.slice?_whole] at hw
  exact ⟨gaps, parts, hg, hp, (Option.some.inj hw).symm⟩

end FlatSyntax

import FlatSyntax.Proofs.Token.Ownership
import FlatSyntax.Proofs.Tree.Records

namespace FlatSyntax

theorem WellFormed.of_spans {text : Text} {ts us : List Token} (h : WellFormed text ts)
    (he : us.map Token.span = ts.map Token.span) : WellFormed text us := by
  have hspan : ∀ u ∈ us, ∃ t ∈ ts, t.span = u.span := by
    intro u hu
    have hm : u.span ∈ ts.map Token.span := he ▸ List.mem_map_of_mem hu
    exact List.mem_map.mp hm
  refine wellFormed_iff.mpr ⟨?_, ?_⟩
  · intro u hu
    obtain ⟨t, ht, hs⟩ := hspan u hu
    have hp := h.aligned t ht
    rw [hs] at hp
    exact hp
  · have hapart := (List.pairwise_map (f := Token.span)
      (R := fun r s => r.stop ≤ s.start)).mpr h.apart
    rw [← he] at hapart
    exact List.pairwise_map.mp hapart

theorem Token.wellFormed_normalize (text : Text) (tokens : List Token) :
    WellFormed text (normalize text tokens) := by
  rw [normalize_eq_repair]
  exact wellFormed_repair text tokens

theorem Token.length_normalize (text : Text) (tokens : List Token) :
    (normalize text tokens).length = tokens.length := by
  rw [normalize_eq_repair]
  exact length_repair text tokens

namespace Tree

/-- The tree is flat: a leaf of a known type for each span, and the root over the document as the
last record. The spans stand in the document on character boundaries, each after the ones before
it. -/
structure Layout (t : Tree) (spans : List Span) : Prop where
  root : ∃ r, t.records.getLast? = some r ∧ r.typeId = NodeType.root.id ∧
    r.span? = some (.whole t.text)
  leafSize : ∀ r ∈ t.records.dropLast, r.size = Record.unit
  leafType : ∀ r ∈ t.records.dropLast, ∃ type, NodeType.ofId? r.typeId = some type
  leafSpans : t.records.dropLast.map Record.span? = spans.map some
  nodeSpans : t.leaves.map t.spanAt = spans.map some
  inside : ∀ s ∈ spans, s.stop ≤ t.text.size
  aligned : ∀ s ∈ spans, t.text.isBoundary s.start = true ∧ t.text.isBoundary s.stop = true
  apart : spans.Pairwise fun r s => r.stop ≤ s.start

theorem layout_ofTokens {text : Text} {tokens : List Token} (h : WellFormed text tokens) :
    (ofTokens text tokens).Layout (tokens.map Token.span) := by
  have hleaf : ∀ r ∈ (ofTokens text tokens).records.dropLast, ∃ t ∈ tokens, leafRecord t = r := by
    rw [records_ofTokens, List.dropLast_concat]
    intro r hr
    exact List.mem_map.mp hr
  constructor
  case root =>
    refine ⟨_, by rw [records_ofTokens, List.getLast?_concat], rfl, ?_⟩
    rw [Record.span?_ofSpan, text_ofTokens]
  case leafSize =>
    intro r hr
    obtain ⟨t, -, rfl⟩ := hleaf r hr
    rfl
  case leafType =>
    intro r hr
    obtain ⟨t, -, rfl⟩ := hleaf r hr
    exact ⟨NodeType.ofKind t.kind, NodeType.ofId?_id _⟩
  case leafSpans =>
    rw [records_ofTokens, List.dropLast_concat, List.map_map, List.map_map]
    apply List.map_congr_left
    intro t _
    exact Record.span?_ofSpan _ _ _
  case nodeSpans => exact map_spanAt_leaves_ofTokens text tokens
  case inside =>
    intro s hs
    obtain ⟨t, ht, rfl⟩ := List.mem_map.mp hs
    rw [text_ofTokens]
    exact h.inside t ht
  case aligned =>
    intro s hs
    obtain ⟨t, ht, rfl⟩ := List.mem_map.mp hs
    rw [text_ofTokens]
    exact h.aligned t ht
  case apart => exact List.pairwise_map.mpr h.apart

/-- Any stream of tokens makes a tree that is laid out well, with one leaf for each token. The
leaves show their true text, and with the text between them they make up the document. -/
theorem build_layout (text : Text) (tokens : List Token) :
    let t := build text tokens
    t.text = text ∧ t.records.length = tokens.length + 1 ∧
      ∃ spans gaps, t.Layout spans ∧
        (∀ ts, ts.map Token.span = spans → validate text ts = .ok ()) ∧
        spans.map (fun s => s.slice? text) = (t.leaves.map t.nodeText).map some ∧
        (Span.gaps 0 text.size spans).map (fun g => text.slice? g.1 g.2) = gaps.map some ∧
        Text.weave gaps (t.leaves.map t.nodeText) = text := by
  intro t
  have hw := Token.wellFormed_normalize text tokens
  obtain ⟨gaps, parts, hgaps, hparts, hweave⟩ := hw.exists_weave
  have hshown : t.leaves.map t.nodeText = parts := by
    have h := congrArg (List.map (Option.getD · [])) hparts
    rw [List.map_map, List.map_map] at h
    refine (map_nodeText_leaves_ofTokens text (Token.normalize text tokens)).trans (h.trans ?_)
    exact List.map_id parts
  refine ⟨text_ofTokens _ _, ?_, (Token.normalize text tokens).map Token.span, gaps,
    layout_ofTokens hw, ?_, ?_, hgaps, ?_⟩
  · rw [length_records]
    exact (recordCount_ofTokens _ _).trans (by rw [Token.length_normalize])
  · intro ts hts
    exact validate_eq_ok_iff.mpr (hw.of_spans hts)
  · rw [hshown, List.map_map]
    exact hparts
  · rw [hshown]
    exact hweave

/-- The leaves of a tree are its tokens, snapped to the characters of the text and ordered by
their starts. Each byte belongs to the first of the tokens that cover it, and to no other. -/
theorem build_ownership (text : Text) (tokens : List Token) :
    let t := build text tokens
    let snapped := tokens.map (Token.snap text)
    let order := Token.sortByStart snapped
    (∀ u, Token.Snapped text u (u.snap text)) ∧ Token.StablyOrdered snapped order ∧
      t.leaves.map t.nodeType = order.map (fun u => NodeType.ofKind u.kind) ∧
      ∃ spans : List Span, t.leaves.map t.spanAt = spans.map some ∧
        Token.SharedOut order spans := by
  intro t snapped order
  have hnorm : Token.normalize text tokens = Token.pushApart 0 order :=
    Token.normalize_eq_repair text tokens
  have ht : t = ofTokens text (Token.pushApart 0 order) := congrArg (ofTokens text) hnorm
  refine ⟨Token.snapped_snap text, Token.stablyOrdered_sortByStart snapped, ?_,
    (Token.pushApart 0 order).map Token.span, ?_,
    Token.sharedOut_pushApart (Token.sortByStart_sorted snapped)⟩
  · have hkinds := congrArg (List.map NodeType.ofKind) (Token.map_kind_pushApart 0 order)
    rw [List.map_map, List.map_map] at hkinds
    rw [ht, map_nodeType_leaves_ofTokens]
    exact hkinds
  · rw [ht]
    exact map_spanAt_leaves_ofTokens _ _

end Tree

end FlatSyntax

import FlatSyntax.Proofs.Tree.Policy
import Mathlib.Data.List.Basic

namespace FlatSyntax

/-- The style that tokens of a kind are shown in. Separators and errors have none. -/
def TokenKind.style? : TokenKind → Option Style
  | .constKw | .letKw => some .keyword
  | .assign => some .operator
  | .number => some .number
  | .string => some .string
  | .ident => some .variableName
  | .semicolon | .error => none

theorem style_ofKind (k : TokenKind) : (NodeType.ofKind k).style = k.style? := by
  cases k <;> rfl

theorem Span.meet?_whole {text : Text} {s : Span} (h : s.stop ≤ text.size) :
    s.meet? (.whole text) = some s := by
  have hstop : min s.stop text.size = s.stop := Nat.min_eq_left h
  simp [meet?, whole, ofBounds?, hstop, s.ordered]

theorem Diagnostic.message_unrecognized {text m : Text} {s : Span} (h : s.slice? text = some m) :
    (Diagnostic.unrecognized text s).message = "unrecognized token `".toList ++ m ++ ['`'] := by
  have hm : (s.slice? text).getD [] = m := by rw [h, Option.getD_some]
  rw [← hm]
  unfold unrecognized
  dsimp only

namespace Token

/-- The highlight of a token, if its kind has a style. -/
def highlight? (t : Token) : Option Highlight :=
  t.kind.style?.map fun style => ⟨t.span, style⟩

/-- The complaint about a token that is an error. -/
def complaint? (text : Text) (t : Token) : Option Diagnostic :=
  if t.kind = .error then some (.unrecognized text t.span) else none

theorem highlight?_eq_some_iff {t : Token} {h : Highlight} :
    t.highlight? = some h ↔ t.kind.style? = some h.style ∧ h.span = t.span := by
  obtain ⟨span, style⟩ := h
  rw [highlight?, Option.map_eq_some_iff]
  constructor
  · intro h
    obtain ⟨style', hs, he⟩ := h
    obtain ⟨rfl, rfl⟩ := Highlight.mk.inj he
    exact ⟨hs, rfl⟩
  · intro h
    obtain ⟨hs, hspan⟩ := h
    exact ⟨style, hs, congrArg (Highlight.mk · style) hspan.symm⟩

theorem complaint?_eq_some_iff {text : Text} {t : Token} {d : Diagnostic} :
    t.complaint? text = some d ↔ t.kind = .error ∧ d = .unrecognized text t.span := by
  unfold complaint?
  split
  · rename_i h
    simp [h, eq_comm]
  · rename_i h
    simp [h]

section Pairwise

variable {R : Span → Span → Prop} {tokens : List Token}

theorem pairwise_highlights (h : tokens.Pairwise fun s t => R s.span t.span) :
    (tokens.filterMap highlight?).Pairwise fun f g => R f.span g.span := by
  apply h.filterMap
  intro s t hst f hf g hg
  rw [(highlight?_eq_some_iff.mp hf).2, (highlight?_eq_some_iff.mp hg).2]
  exact hst

theorem pairwise_complaints {text : Text} (h : tokens.Pairwise fun s t => R s.span t.span) :
    (tokens.filterMap (complaint? text)).Pairwise fun d e => R d.span e.span := by
  apply h.filterMap
  intro s t hst d hd e he
  rw [(complaint?_eq_some_iff.mp hd).2, (complaint?_eq_some_iff.mp he).2]
  exact hst

end Pairwise

theorem kinds_normalize (text : Text) (tokens : List Token) :
    ((normalize text tokens).map kind).Perm (tokens.map kind) := by
  have hsnap : (tokens.map (snap text)).map kind = tokens.map kind := by
    rw [List.map_map]
    rfl
  rw [normalize_eq_repair, repair, map_kind_pushApart, ← hsnap]
  exact (sortByStart_perm _).map kind

theorem countP_kind_normalize (text : Text) (tokens : List Token) (k : TokenKind) :
    (normalize text tokens).countP (fun t => t.kind = k) = tokens.countP fun t => t.kind = k := by
  have h := (kinds_normalize text tokens).countP_eq fun j => decide (j = k)
  rw [List.countP_map, List.countP_map] at h
  exact h

theorem map_style_highlights (tokens : List Token) :
    (tokens.filterMap highlight?).map Highlight.style =
      (tokens.map kind).filterMap TokenKind.style? := by
  rw [List.map_filterMap, List.filterMap_map]
  apply List.filterMap_congr
  intro t _
  rw [highlight?, Option.map_map]
  exact Option.map_id'

theorem length_complaints (text : Text) (tokens : List Token) :
    (tokens.filterMap (complaint? text)).length = tokens.countP fun t => t.kind = .error := by
  rw [List.length_filterMap_eq_countP]
  apply List.countP_congr
  intro t _
  unfold complaint?
  split <;> simp_all

/-- A token is highlighted, complained about or a separator, and only one of these. -/
theorem consumed_once (text : Text) (t : Token) :
    (if t.highlight?.isSome then 1 else 0) + (if (t.complaint? text).isSome then 1 else 0) +
      (if t.kind = .semicolon then 1 else 0) = 1 := by
  obtain ⟨kind, span⟩ := t
  cases kind <;> rfl

theorem length_consumed (text : Text) (tokens : List Token) :
    (tokens.filterMap highlight?).length + (tokens.filterMap (complaint? text)).length +
      tokens.countP (fun t => t.kind = .semicolon) = tokens.length := by
  simp only [List.length_filterMap_eq_countP]
  induction tokens with
  | nil => rfl
  | cons t ts ih =>
    have honce := consumed_once text t
    simp only [List.countP_cons, List.length_cons, decide_eq_true_eq]
    omega

end Token

namespace Tree

section OfTokens

variable (text : Text) (tokens : List Token)

/-- What is made of the leaves by their spans and types is made of the tokens. -/
theorem filterMap_leaves_ofTokens {α : Type} {g : Nat → Option α} {h : Token → Option α}
    (hg : ∀ i u, (ofTokens text tokens).spanAt i = some u.span →
      (ofTokens text tokens).nodeType i = NodeType.ofKind u.kind → g i = h u) :
    (ofTokens text tokens).leaves.filterMap g = tokens.filterMap h := by
  have hread : ∀ (i : Nat) (hi : i < tokens.length), g i = h tokens[i] := by
    intro i hi
    have hrecord := recordAt_ofTokens text hi
    have hspan : (ofTokens text tokens).spanAt i = some tokens[i].span := by
      rw [spanAt, hrecord]
      exact Record.span?_ofSpan _ _ _
    have htype : (ofTokens text tokens).nodeType i = NodeType.ofKind tokens[i].kind := by
      have hid : NodeType.ofId? (leafRecord tokens[i]).typeId = _ := NodeType.ofId?_id _
      rw [nodeType, hrecord, hid, Option.getD_some]
    exact hg i tokens[i] hspan htype
  have hmap := congrArg (List.filterMap id) (map_leaves_eq_map text hread)
  rw [List.filterMap_map, List.filterMap_map] at hmap
  exact hmap

theorem spanAt_rootIndex_ofTokens :
    (ofTokens text tokens).spanAt (ofTokens text tokens).rootIndex = some (.whole text) := by
  rw [spanAt, recordAt_rootIndex_ofTokens, Record.span?_ofSpan]

/-- The tokens that share a stretch with a range or touch it are highlighted there. -/
theorem highlightIn_ofTokens (range : Span) :
    (ofTokens text tokens).highlightIn range =
      (tokens.filter fun t => (t.span.meet? range).isSome).filterMap Token.highlight? := by
  rw [List.filterMap_filter]
  apply filterMap_leaves_ofTokens
  intro i u hspan htype
  rw [hspan, htype, style_ofKind, Token.highlight?]
  cases hm : u.span.meet? range with
  | none => simp [hm]
  | some s =>
    cases hs : u.kind.style? with
    | none => simp
    | some style => simp [hm]

/-- An error is complained about where it stands. -/
theorem diagnostics_ofTokens :
    (ofTokens text tokens).diagnostics = tokens.filterMap (Token.complaint? text) := by
  apply filterMap_leaves_ofTokens
  intro i u hspan htype
  have hkind : NodeType.ofKind u.kind = .unknown ↔ u.kind = .error := by
    cases u.kind <;> decide
  rw [hspan, htype, text_ofTokens, Token.complaint?]
  simp [hkind]

variable {text tokens}

/-- No token inside the text is too small or too far out to be highlighted. -/
theorem highlight_ofTokens (h : ∀ t ∈ tokens, t.span.stop ≤ text.size) :
    (ofTokens text tokens).highlight = tokens.filterMap Token.highlight? := by
  have hall : (tokens.filter fun t => (t.span.meet? (.whole text)).isSome) = tokens := by
    apply List.filter_eq_self.mpr
    intro t ht
    rw [Span.meet?_whole (h t ht)]
    rfl
  rw [highlight, spanAt_rootIndex_ofTokens, Option.map_some, Option.getD_some,
    highlightIn_ofTokens, hall]

end OfTokens

/-- The leaves, as tokens, are shared out among the consumers in their order and with their spans.
A complaint quotes the true text of its leaf. -/
structure Consumed (t : Tree) (leaves : List Token) : Prop where
  highlights : t.highlight = leaves.filterMap Token.highlight?
  diagnostics : t.diagnostics = leaves.filterMap (Token.complaint? t.text)
  highlightsInOrder : t.highlight.Pairwise fun g h => g.span.start ≤ h.span.start
  diagnosticsInOrder : t.diagnostics.Pairwise fun d e => d.span.start ≤ e.span.start
  quotes : ∀ d ∈ t.diagnostics, ∃ m, d.span.slice? t.text = some m ∧
    d.message = "unrecognized token `".toList ++ m ++ ['`']

theorem consumed_ofTokens {text : Text} {tokens : List Token} (h : WellFormed text tokens) :
    (ofTokens text tokens).Consumed tokens := by
  have hhigh := highlight_ofTokens h.inside
  have hdiag := diagnostics_ofTokens text tokens
  constructor
  case highlights => exact hhigh
  case diagnostics =>
    rw [text_ofTokens]
    exact hdiag
  case highlightsInOrder =>
    rw [hhigh]
    exact Token.pairwise_highlights (R := fun r s => r.start ≤ s.start) h.sorted
  case diagnosticsInOrder =>
    rw [hdiag]
    exact Token.pairwise_complaints (R := fun r s => r.start ≤ s.start) h.sorted
  case quotes =>
    rw [hdiag, text_ofTokens]
    intro d hd
    obtain ⟨u, hu, hsome⟩ := List.mem_filterMap.mp hd
    obtain ⟨-, rfl⟩ := Token.complaint?_eq_some_iff.mp hsome
    obtain ⟨m, hslice⟩ := Token.Placed.exists_slice? (h.aligned u hu)
    exact ⟨m, hslice, Diagnostic.message_unrecognized hslice⟩

/-- No token is lost. Each one has a leaf, which is highlighted in the style of its kind, or
complained about if it is an error, or else belongs to a semicolon. -/
theorem build_consumers (text : Text) (tokens : List Token) :
    let t := build text tokens
    t.text = text ∧
      (∃ shown, t.Shows shown ∧ t.Consumed shown ∧
        (shown.map Token.kind).Perm (tokens.map Token.kind)) ∧
      (t.highlight.map Highlight.style).Perm (tokens.filterMap fun u => u.kind.style?) ∧
      t.diagnostics.length = tokens.countP (fun u => u.kind = .error) ∧
      t.highlight.length + t.diagnostics.length + tokens.countP (fun u => u.kind = .semicolon) =
        tokens.length := by
  intro t
  have hw := Token.wellFormed_normalize text tokens
  have hkinds := Token.kinds_normalize text tokens
  have hconsumed : t.Consumed (Token.normalize text tokens) := consumed_ofTokens hw
  have htext : t.text = text := text_ofTokens text _
  refine ⟨htext, ⟨_, shows_ofTokens text _, hconsumed, hkinds⟩, ?_, ?_, ?_⟩
  · have hstyles := hkinds.filterMap TokenKind.style?
    have hgiven : (tokens.map Token.kind).filterMap TokenKind.style? =
        tokens.filterMap fun u => u.kind.style? := List.filterMap_map
    rw [hgiven] at hstyles
    rw [hconsumed.highlights, Token.map_style_highlights]
    exact hstyles
  · rw [hconsumed.diagnostics, Token.length_complaints, Token.countP_kind_normalize]
  · have hlength := Token.length_consumed text (Token.normalize text tokens)
    rw [Token.countP_kind_normalize, Token.length_normalize] at hlength
    rw [hconsumed.highlights, hconsumed.diagnostics, htext]
    exact hlength

end Tree

end FlatSyntax

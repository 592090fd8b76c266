import FlatSyntax.Proofs.Tree.Layout
import FlatSyntax.Tree.Consumers

namespace FlatSyntax

theorem Token.normalize_eq_self {text : Text} {tokens : List Token} (h : WellFormed text tokens) :
    normalize text tokens = tokens := by
  rw [normalize_eq_repair]
  exact repair_eq_self h

namespace Tree

/-- The leaves are the given tokens: one leaf for each, in their order, with their spans and the
ids of their types. -/
structure Shows (t : Tree) (tokens : List Token) : Prop where
  spans : t.leaves.map t.spanAt = (tokens.map Token.span).map some
  types : t.leaves.map (fun i => (t.recordAt i).typeId) =
    tokens.map fun u => (NodeType.ofKind u.kind).id

theorem shows_ofTokens (text : Text) (tokens : List Token) : (ofTokens text tokens).Shows tokens :=
  ⟨map_spanAt_leaves_ofTokens text tokens, map_leaves_ofTokens text tokens Record.typeId⟩

theorem length_leaves_build (text : Text) (tokens : List Token) :
    (build text tokens).leaves.length = tokens.length := by
  rw [build, length_leaves_ofTokens, Token.length_normalize]

/-- No malformed stream is repaired into leaves with the spans it had. -/
theorem wellFormed_of_spans_build {text : Text} {tokens : List Token}
    (h : (build text tokens).leaves.map (build text tokens).spanAt =
      (tokens.map Token.span).map some) : WellFormed text tokens := by
  have hleaves := map_spanAt_leaves_ofTokens text (Token.normalize text tokens)
  have hsome := hleaves.symm.trans h
  have hspans : tokens.map Token.span = (Token.normalize text tokens).map Token.span :=
    ((List.map_inj_right fun _ _ => Option.some.inj).mp hsome).symm
  exact (Token.wellFormed_normalize text tokens).of_spans hspans

theorem build_eq_ofTokens {text : Text} {tokens : List Token} (h : WellFormed text tokens) :
    build text tokens = ofTokens text tokens := by
  rw [build, Token.normalize_eq_self h]

/-- The leaves are the given tokens exactly if there is nothing to repair. -/
theorem shows_build_iff {text : Text} {tokens : List Token} :
    (build text tokens).Shows tokens ↔ WellFormed text tokens := by
  constructor
  · intro h
    exact wellFormed_of_spans_build h.spans
  · intro h
    rw [build_eq_ofTokens h]
    exact shows_ofTokens text tokens

/-- Some leaf for a token of a malformed stream has another span than the token. -/
theorem exists_moved {text : Text} {tokens : List Token} (h : ¬ WellFormed text tokens) :
    ∃ (i leaf : Nat) (u : Token), (build text tokens).leaves[i]? = some leaf ∧
      tokens[i]? = some u ∧ (build text tokens).spanAt leaf ≠ some u.span := by
  apply Classical.byContradiction
  intro hno
  apply h
  apply wellFormed_of_spans_build
  have hlen := length_leaves_build text tokens
  apply List.ext_getElem
  · simp [hlen]
  · intro i hi hi'
    rw [List.length_map] at hi
    have hu : i < tokens.length := by rw [← hlen]; exact hi
    simp only [List.getElem_map]
    apply Classical.byContradiction
    intro hne
    exact hno ⟨i, _, _, List.getElem?_eq_getElem hi, List.getElem?_eq_getElem hu, hne⟩

theorem buildUnder_reject_of_wellFormed {text : Text} {tokens : List Token}
    (h : WellFormed text tokens) :
    buildUnder .reject text tokens = .ok (build text tokens) := by
  rw [buildUnder, validate_eq_ok_iff.mpr h, build_eq_ofTokens h]
  rfl

theorem buildUnder_reject_of_error {text : Text} {tokens : List Token} {e : StreamError}
    (h : validate text tokens = .error e) : buildUnder .reject text tokens = .error e := by
  rw [buildUnder, h]
  rfl

/-- The strict build accepts exactly the streams in which there is nothing to repair, and makes
the tree of them that the other one makes. A stream that it refuses is repaired into other
leaves. -/
theorem policies_agree (text : Text) (tokens : List Token) :
    let t := build text tokens
    ((∃ s, buildUnder .reject text tokens = .ok s) ↔ validate text tokens = .ok ()) ∧
      (validate text tokens = .ok () ↔ t.Shows tokens) ∧
      (∀ s, buildUnder .reject text tokens = .ok s →
        (s.words = t.words ∧ s.text = t.text ∧ s.dump = t.dump) ∧
          ∃ n, buildUnder .normalize text tokens = .ok n ∧
            s.words = n.words ∧ s.text = n.text ∧ s.dump = n.dump) ∧
      ∀ e, buildUnder .reject text tokens = .error e →
        ∃ (i leaf : Nat) (u : Token), t.leaves[i]? = some leaf ∧ tokens[i]? = some u ∧
          t.spanAt leaf ≠ some u.span := by
  intro t
  have hshows : validate text tokens = .ok () ↔ t.Shows tokens :=
    validate_eq_ok_iff.trans shows_build_iff.symm
  cases hv : validate text tokens with
  | ok =>
    have hw := validate_eq_ok_iff.mp hv
    have hreject : buildUnder .reject text tokens = .ok t := buildUnder_reject_of_wellFormed hw
    rw [hv] at hshows
    refine ⟨⟨fun _ => rfl, fun _ => ⟨t, hreject⟩⟩, hshows, ?_, ?_⟩
    · intro s hs
      obtain rfl : t = s := Except.ok.inj (hreject.symm.trans hs)
      exact ⟨⟨rfl, rfl, rfl⟩, t, rfl, rfl, rfl, rfl⟩
    · intro e he
      rw [hreject] at he
      simp at he
  | error e =>
    have hreject := buildUnder_reject_of_error hv
    have hw : ¬ WellFormed text tokens := by
      intro hw
      rw [validate_eq_ok_iff.mpr hw] at hv
      simp at hv
    rw [hv] at hshows
    refine ⟨?_, hshows, ?_, fun _ _ => exists_moved hw⟩
    · simp [hreject]
    · intro s hs
      rw [hreject] at hs
      simp at hs

end Tree

namespace TokenKind

/-- The kind of token whose node type has the given id. The root's type and unused ids are of no
kind. -/
def ofTypeId? (id : Nat) : Option TokenKind :=
  all.find? fun k => (NodeType.ofKind k).id == id

theorem ofTypeId?_eq_some_iff {id : Nat} {k : TokenKind} :
    ofTypeId? id = some k ↔ (NodeType.ofKind k).id = id := by
  constructor
  · intro h
    have hfound := List.find?_some h
    exact eq_of_beq hfound
  · intro h
    subst h
    cases k <;> rfl

end TokenKind

/-- The token that a leaf's record is written for. -/
def Record.token? (r : Record) : Option Token := do
  let kind ← TokenKind.ofTypeId? r.typeId
  let span ← r.span?
  return ⟨kind, span⟩

namespace Tree

/-- The token that is read back from a leaf. -/
def tokenAt? (t : Tree) (i : Nat) : Option Token :=
  (t.recordAt i).token?

/-- Nothing of a token is lost in its record. -/
theorem token?_leafRecord (u : Token) : (leafRecord u).token? = some u := by
  have hkind : TokenKind.ofTypeId? (leafRecord u).typeId = some u.kind :=
    TokenKind.ofTypeId?_eq_some_iff.mpr rfl
  have hspan : (leafRecord u).span? = some u.span := Record.span?_ofSpan _ _ _
  rw [Record.token?, hkind, hspan]
  rfl

/-- The tokens of a tree, well formed or not, can be read back from its leaves. -/
theorem map_tokenAt?_leaves_ofTokens (text : Text) (tokens : List Token) :
    (ofTokens text tokens).leaves.map (ofTokens text tokens).tokenAt? = tokens.map some := by
  refine (map_leaves_ofTokens text tokens Record.token?).trans (List.map_congr_left ?_)
  intro u _
  exact token?_leafRecord u

/-- A well-formed stream gives one tree under both policies. -/
theorem buildUnder_of_wellFormed {text : Text} {tokens : List Token} (h : WellFormed text tokens)
    (policy : Policy) : buildUnder policy text tokens = .ok (ofTokens text tokens) := by
  rw [← build_eq_ofTokens h]
  cases policy with
  | normalize => rfl
  | reject => exact buildUnder_reject_of_wellFormed h

/-- The tokens read back from the leaves of any tree make the same tree again, also for the strict
build. A stream in which there is nothing to repair is read back as it was given. -/
theorem build_roundTrip (text : Text) (tokens : List Token) :
    let t := build text tokens
    (∃ us, t.leaves.map t.tokenAt? = us.map some ∧ validate text us = .ok () ∧
      (∀ policy, buildUnder policy text us = .ok t) ∧
      (validate text tokens = .ok () → us = tokens)) ∧
      Token.normalize text (Token.normalize text tokens) = Token.normalize text tokens := by
  intro t
  have hw := Token.wellFormed_normalize text tokens
  have hread : t.leaves.map t.tokenAt? = (Token.normalize text tokens).map some :=
    map_tokenAt?_leaves_ofTokens text _
  refine ⟨⟨Token.normalize text tokens, hread, validate_eq_ok_iff.mpr hw,
    buildUnder_of_wellFormed hw, ?_⟩, Token.normalize_eq_self hw⟩
  intro hv
  exact Token.normalize_eq_self (validate_eq_ok_iff.mp hv)

end Tree

end FlatSyntax

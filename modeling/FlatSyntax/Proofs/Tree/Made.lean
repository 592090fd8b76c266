import FlatSyntax.Proofs.Session

namespace FlatSyntax

namespace Session

theorem eq_of_reply_eq_tree {document : Text} {tree t : Tree} {advanced : Bool} {r : Request}
    (h : reply document tree advanced r = .tree (some t)) : t = tree := by
  cases r with
  | advance =>
    obtain rfl : tree = t := by simpa [reply] using h
    rfl
  | stopAt pos => simp [reply] at h
  | parsedPos => simp [reply] at h
  | stoppedAt => simp [reply] at h
  | isDone => simp [reply] at h

/-- A session shows no tree but the one of its document. -/
theorem eq_of_tree_mem_replies {document : Text} {tree t : Tree} {requests : List Request}
    (h : .tree (some t) ∈ replies document tree requests) : t = tree := by
  obtain ⟨i, hi, hreply⟩ := List.mem_mapIdx.mp h
  exact eq_of_reply_eq_tree hreply

end Session

namespace Tree

/-- A builder that has been started and given leaves, with any spans and in any order. -/
inductive Builder.Used : Builder → Prop where
  | start (text : Text) : Used (.start text)
  | leaf {b : Builder} (h : b.Used) (kind : TokenKind) (span : Span) : Used (b.leaf kind span)
  | token {b : Builder} (h : b.Used) (t : Token) : Used (b.token t)

/-- A call that adds a leaf to a builder. -/
inductive Builder.Call where
  | leaf (kind : TokenKind) (span : Span)
  | token (t : Token)

/-- The token that a call adds a leaf for. -/
def Builder.Call.added : Call → Token
  | .leaf kind span => ⟨kind, span⟩
  | .token t => t

def Builder.call (b : Builder) : Call → Builder
  | .leaf kind span => b.leaf kind span
  | .token t => b.token t

/-- The tree of a builder that is started, gets its leaves by calls one after the other, and is
finished. -/
def Builder.run (text : Text) (calls : List Call) : Tree :=
  (calls.foldl call (.start text)).finish

theorem Builder.run_eq_ofTokens (text : Text) (calls : List Call) :
    run text calls = ofTokens text (calls.map Call.added) := by
  have hcall : call = fun b c => b.token c.added := by
    funext b c
    cases c with
    | leaf kind span => rfl
    | token t => rfl
  rw [run, ofTokens, List.foldl_map, hcall]

/-- A tree that has been made in one of the ways there are: by a builder, of a stream of tokens
under either policy, by a parser, or by an advance of a session between other requests. -/
inductive Made : Tree → Prop where
  | finish {b : Builder} (h : b.Used) : Made b.finish
  | build (text : Text) (tokens : List Token) : Made (build text tokens)
  | buildUnder {policy : Policy} {text : Text} {tokens : List Token} {t : Tree}
      (h : buildUnder policy text tokens = .ok t) : Made t
  | parse {α : Type} [Input α] (p : Parser) (x : α) : Made (p.parse x)
  | advance {document : Text} {source : TokenSource} {requests : List Session.Request} {t : Tree}
      (h : .tree (some t) ∈ ((Session.start document source).run requests).1) : Made t

theorem Builder.Used.exists_foldl {b : Builder} (h : b.Used) :
    ∃ text tokens, b = List.foldl Builder.token (.start text) tokens := by
  induction h with
  | start text => exact ⟨text, [], rfl⟩
  | leaf _ kind span ih =>
    obtain ⟨text, tokens, rfl⟩ := ih
    exact ⟨text, tokens ++ [⟨kind, span⟩], by rw [List.foldl_append]; rfl⟩
  | token _ t ih =>
    obtain ⟨text, tokens, rfl⟩ := ih
    exact ⟨text, tokens ++ [t], by rw [List.foldl_append]; rfl⟩

/-- However a tree has been made, it has a leaf for each token of some row, as the tokens stand. -/
theorem Made.exists_ofTokens {t : Tree} (h : t.Made) : ∃ text tokens, t = ofTokens text tokens := by
  cases h with
  | finish hb =>
    obtain ⟨text, tokens, rfl⟩ := hb.exists_foldl
    exact ⟨text, tokens, rfl⟩
  | build text tokens => exact ⟨text, _, rfl⟩
  | @buildUnder policy text tokens _ hok =>
    cases policy with
    | normalize => exact ⟨text, _, (Except.ok.inj hok).symm⟩
    | reject =>
      rw [Tree.buildUnder] at hok
      cases hv : validate text tokens with
      | ok =>
        rw [hv] at hok
        exact ⟨text, tokens, (Except.ok.inj hok).symm⟩
      | error e =>
        rw [hv] at hok
        exact absurd hok (by simp [Except.map])
  | parse p x => exact ⟨_, _, p.parse_eq x⟩
  | @advance document source requests _ hmem =>
    rw [Session.run_start] at hmem
    exact ⟨document, _, Session.eq_of_tree_mem_replies hmem⟩

end Tree

end FlatSyntax

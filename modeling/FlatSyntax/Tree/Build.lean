import FlatSyntax.Token.Stream
import FlatSyntax.Tree.Basic

namespace FlatSyntax

namespace Tree

/-- A tree whose leaves are being written. The root is written last. -/
structure Builder where
  text : Text
  words : Array Nat
  leaves : Nat

namespace Builder

def start (text : Text) : Builder :=
  ⟨text, #[], 0⟩

/-- Adds a leaf with the span as given, wherever the leaves before it are. -/
def leaf (b : Builder) (kind : TokenKind) (span : Span) : Builder :=
  ⟨b.text, b.words ++ (Record.leaf (NodeType.ofKind kind).id span).words, b.leaves + 1⟩

def token (b : Builder) (t : Token) : Builder :=
  b.leaf t.kind t.span

/-- The root over the whole document. Its size is a word of 32 bits. -/
def rootRecord (b : Builder) : Record :=
  .ofSpan NodeType.root.id (.whole b.text)
    ((b.leaves * Record.unit + Record.unit) % UInt32.size)

def finish (b : Builder) : Tree :=
  ⟨b.words ++ b.rootRecord.words, b.text⟩

/-- How the use of a builder can fail. -/
inductive Misuse where
  | unfinished
  deriving DecidableEq

def Misuse.message : Misuse → String
  | unfinished => "`TreeBuilder::finish()` must be called"

/-- Gives up a builder, which is a misuse: a builder has to be finished. -/
def discard (_ : Builder) : Except Misuse Unit :=
  .error .unfinished

end Builder

/-- The tree with one leaf for each token, as the tokens stand. -/
def ofTokens (text : Text) (tokens : List Token) : Tree :=
  (tokens.foldl Builder.token (.start text)).finish

/-- The tree of any stream of tokens. A malformed one is repaired first. -/
def build (text : Text) (tokens : List Token) : Tree :=
  ofTokens text (Token.normalize text tokens)

/-- The record of the leaf for a token. -/
def leafRecord (t : Token) : Record :=
  .leaf (NodeType.ofKind t.kind).id t.span

private theorem foldl_token (b : Builder) (tokens : List Token) :
    let b' := tokens.foldl Builder.token b
    b'.words.toList = b.words.toList ++ (tokens.map leafRecord).flatMap Record.words ∧
      b'.leaves = b.leaves + tokens.length ∧ b'.text = b.text := by
  induction tokens generalizing b with
  | nil => simp
  | cons t ts ih =>
    obtain ⟨hw, hl, ht⟩ := ih (b.token t)
    refine ⟨?_, ?_, ht⟩
    · rw [List.foldl_cons, hw]
      simp [Builder.token, Builder.leaf, leafRecord]
    · rw [List.foldl_cons, hl, List.length_cons]
      simp only [Builder.token, Builder.leaf]
      omega

theorem words_ofTokens (text : Text) (tokens : List Token) :
    (ofTokens text tokens).words.toList =
      (tokens.map leafRecord ++
        [Record.ofSpan NodeType.root.id (.whole text)
          ((tokens.length * Record.unit + Record.unit) % UInt32.size)]).flatMap Record.words := by
  obtain ⟨hw, hl, ht⟩ := foldl_token (.start text) tokens
  rw [ofTokens, Builder.finish, Array.toList_appendList, hw, List.flatMap_append, Builder.rootRecord,
    hl, ht]
  simp [Builder.start]

/-- The records of a tree are its leaves in the order of the tokens, and the root. -/
theorem records_ofTokens (text : Text) (tokens : List Token) :
    (ofTokens text tokens).records =
      tokens.map leafRecord ++
        [.ofSpan NodeType.root.id (.whole text)
          ((tokens.length * Record.unit + Record.unit) % UInt32.size)] := by
  rw [records, words_ofTokens, Record.ofWords_flatMap_words]

theorem text_ofTokens (text : Text) (tokens : List Token) : (ofTokens text tokens).text = text :=
  (foldl_token (.start text) tokens).2.2

/-- What to do with a malformed stream. -/
inductive Policy where
  | normalize
  | reject
  deriving DecidableEq

def buildUnder (policy : Policy) (text : Text) (tokens : List Token) : Except StreamError Tree :=
  match policy with
  | .normalize => .ok (build text tokens)
  | .reject => (validate text tokens).map fun _ => ofTokens text tokens

end Tree

end FlatSyntax

import FlatSyntax.Lexer.Scanner
import FlatSyntax.Tree.Build

namespace FlatSyntax

/-- What a document can be read from. -/
class Input (α : Type) where
  size : α → Nat
  /-- The text between two offsets, unless they are inverted, outside or inside a character. -/
  read? : α → Nat → Nat → Option Text

namespace Input

variable {α : Type} [Input α]

def isEmpty (x : α) : Bool :=
  size x == 0

/-- The whole text. -/
def text (x : α) : Text :=
  (read? x 0 (size x)).getD []

end Input

instance : Input Text where
  size := Text.size
  read? := Text.slice?

instance : Input String where
  size s := Text.size s.toList
  read? s := Text.slice? s.toList

/-- A source of tokens. Each run of it, numbered from 0, may answer differently. -/
abbrev TokenSource := Nat → Text → List Token

/-- A parse of one document. The first advance does all the work. -/
structure Session where
  document : Text
  source : TokenSource
  runs : Nat
  tree : Option Tree

namespace Session

def start (document : Text) (source : TokenSource) : Session :=
  ⟨document, source, 0, none⟩

def isDone (s : Session) : Bool :=
  s.tree.isSome

/-- A unit of work, and the tree if that completes the parse. The tree is built unless that has
been done before. -/
def advance (s : Session) : Option Tree × Session :=
  match s.tree with
  | some t => (some t, s)
  | none =>
    let t := Tree.build s.document (s.source s.runs s.document)
    (some t, ⟨s.document, s.source, s.runs + 1, some t⟩)

/-- A parse cannot be stopped part way. -/
def stopAt (s : Session) (_ : Nat) : Session :=
  s

/-- The document counts as read to its end from the outset. -/
def parsedPos (s : Session) : Nat :=
  s.document.size

/-- The bound of the parse, if it has one. -/
def stoppedAt (s : Session) : Option Nat :=
  some s.document.size

/-- The session by its size and progress. -/
def summary (s : Session) : Text :=
  "ParseSession \x7b len: ".toList ++ Text.decimal s.document.size ++
    ", done: ".toList ++ (if s.isDone then "true" else "false").toList ++ ", .. \x7d".toList

/-- What can be asked of a session. -/
inductive Request where
  | advance
  | stopAt (pos : Nat)
  | parsedPos
  | stoppedAt
  | isDone
  deriving DecidableEq

inductive Answer where
  | tree (t : Option Tree)
  | nothing
  | position (pos : Nat)
  | bound (pos : Option Nat)
  | done (b : Bool)

def answer (s : Session) : Request → Answer × Session
  | .advance => (.tree s.advance.1, s.advance.2)
  | .stopAt pos => (.nothing, s.stopAt pos)
  | .parsedPos => (.position s.parsedPos, s)
  | .stoppedAt => (.bound s.stoppedAt, s)
  | .isDone => (.done s.isDone, s)

/-- The answers to requests made one after the other, and the session after them. -/
def run (s : Session) : List Request → List Answer × Session
  | [] => ([], s)
  | r :: rs =>
    let first := s.answer r
    let others := first.2.run rs
    (first.1 :: others.1, others.2)

theorem exists_advance (s : Session) : ∃ t s', s.advance = (some t, s') := by
  unfold advance
  split
  · exact ⟨_, s, rfl⟩
  · exact ⟨_, _, rfl⟩

/-- Advances until there is a tree. -/
def complete (s : Session) : Tree :=
  match _h : s.advance with
  | (some t, _) => t
  | (none, s') => s'.complete
  termination_by s.document.size
  decreasing_by
    obtain ⟨t, s'', hs⟩ := s.exists_advance
    simp [hs] at _h

end Session

/-- A piece of an earlier tree that could be used again, and how far its text has moved. -/
structure Fragment where
  start : Nat
  stop : Nat
  offset : Int
  tree : Tree

/-- A stretch of the document that has changed since an earlier parse. -/
structure Change where
  start : Nat
  stop : Nat

/-- A way to make trees of documents. -/
structure Parser where
  source : TokenSource

namespace Parser

def standard : Parser :=
  ⟨fun _ => tokenize⟩

/-- The parser that takes its tokens from a function of the text. -/
def ofTokenizer (f : Text → List Token) : Parser :=
  ⟨fun _ => f⟩

variable {α : Type} [Input α]

/-- Starts a parse from scratch, whatever could be used again. -/
def start (p : Parser) (x : α) (_ : List Fragment) (_ : List Change) : Session :=
  .start (Input.text x) p.source

def parse (p : Parser) (x : α) : Tree :=
  (p.start x [] []).complete

def summary (_ : Parser) : Text :=
  "ZephyrParser \x7b .. \x7d".toList

end Parser

/-- The tree of a text under the built-in tokenizer. -/
def parse (t : Text) : Tree :=
  Parser.standard.parse t

end FlatSyntax

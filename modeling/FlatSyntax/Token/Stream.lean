import FlatSyntax.Token.Basic

namespace FlatSyntax

/-- What can be wrong with a token in a stream over a document. -/
inductive Defect where
  | outOfBounds (size : Nat)
  | splitsChar
  | outOfOrder (previous : Span)
  | overlapping (previous : Span)
  deriving DecidableEq

def Defect.clause : Defect → Text
  | .outOfBounds size =>
    "ends past the end of the document (".toList ++ Text.decimal size ++ [')']
  | .splitsChar => "splits a multi-byte character".toList
  | .outOfOrder p => "starts before the previous token at ".toList ++ p.describe
  | .overlapping p => "overlaps the previous token at ".toList ++ p.describe

/-- The first token of a stream that cannot stand where it does. -/
structure StreamError where
  index : Nat
  token : Token
  defect : Defect
  deriving DecidableEq

def StreamError.message (e : StreamError) : Text :=
  "token #".toList ++ Text.decimal e.index ++ " (".toList ++ e.token.kind.name.toList ++
    " at ".toList ++ e.token.span.describe ++ ") ".toList ++ e.defect.clause

/-- Every token lies in the text on character boundaries and ends before all later ones start. -/
structure WellFormed (text : Text) (tokens : List Token) : Prop where
  inside : ∀ t ∈ tokens, t.span.stop ≤ text.size
  aligned : ∀ t ∈ tokens,
    text.isBoundary t.span.start = true ∧ text.isBoundary t.span.stop = true
  apart : tokens.Pairwise fun s t => s.span.stop ≤ t.span.start

namespace Token

/-- What is wrong with a token after the previous one, the earliest check first. -/
def defect? (text : Text) (previous : Option Span) (t : Token) : Option Defect :=
  if text.size < t.span.stop then some (.outOfBounds text.size)
  else if !(text.isBoundary t.span.start && text.isBoundary t.span.stop) then some .splitsChar
  else
    previous.bind fun p =>
      if t.span.start < p.start then some (.outOfOrder p)
      else if t.span.start < p.stop then some (.overlapping p)
      else none

end Token

def validateFrom (text : Text) (index : Nat) (previous : Option Span) :
    List Token → Except StreamError Unit
  | [] => .ok ()
  | t :: ts =>
    match t.defect? text previous with
    | some d => .error ⟨index, t, d⟩
    | none => validateFrom text (index + 1) (some t.span) ts

/-- Whether the tokens lie in the text on character boundaries, each after the one before it. -/
def validate (text : Text) (tokens : List Token) : Except StreamError Unit :=
  validateFrom text 0 none tokens

namespace Token

/-- The token with its ends moved into the text and down to character boundaries. -/
def snap (text : Text) (t : Token) : Token :=
  ⟨t.kind, t.span.floor text⟩

/-- Moves each token to after the end of the one before it. A swallowed token becomes empty. -/
def pushApart (stop : Nat) : List Token → List Token
  | [] => []
  | t :: ts =>
    let span := Span.collapse (max t.span.start stop) t.span.stop
    ⟨t.kind, span⟩ :: pushApart span.stop ts

def sortByStart (ts : List Token) : List Token :=
  ts.mergeSort fun a b => a.span.start ≤ b.span.start

/-- A well-formed stream with the same tokens, whatever the given one looks like. -/
def repair (text : Text) (ts : List Token) : List Token :=
  pushApart 0 (sortByStart (ts.map (snap text)))

/-- The given stream if it is well formed, else the repaired one. -/
def normalize (text : Text) (ts : List Token) : List Token :=
  match validate text ts with
  | .ok () => ts
  | .error _ => repair text ts

theorem length_pushApart (stop : Nat) (ts : List Token) :
    (pushApart stop ts).length = ts.length := by
  induction ts generalizing stop with
  | nil => rfl
  | cons t ts ih => simp [pushApart, ih]

theorem length_repair (text : Text) (ts : List Token) :
    (repair text ts).length = ts.length := by
  simp [repair, length_pushApart, sortByStart, List.length_mergeSort]

end Token

end FlatSyntax

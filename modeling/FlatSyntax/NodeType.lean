import FlatSyntax.Token.Basic

namespace FlatSyntax

/-- How a highlighter shows a token. -/
inductive Style where
  | keyword
  | operator
  | number
  | string
  | variableName
  deriving DecidableEq

def Style.name : Style → String
  | keyword => "keyword"
  | operator => "operator"
  | number => "number"
  | string => "string"
  | variableName => "variableName"

/-- The types of tree nodes: the root, one for each kind of token, and one for what is no token. -/
inductive NodeType where
  | root
  | constKw
  | letKw
  | semicolon
  | assign
  | number
  | string
  | identifier
  | unknown
  deriving DecidableEq

namespace NodeType

/-- All types in the order of their ids. -/
def all : List NodeType :=
  [root, constKw, letKw, semicolon, assign, number, string, identifier, unknown]

def id : NodeType → Nat
  | root => 0
  | constKw => 1
  | letKw => 2
  | semicolon => 3
  | assign => 4
  | number => 5
  | string => 6
  | identifier => 7
  | unknown => 8

def ofId? (i : Nat) : Option NodeType :=
  all[i]?

def ofKind : TokenKind → NodeType
  | .constKw => constKw
  | .letKw => letKw
  | .semicolon => semicolon
  | .assign => assign
  | .number => number
  | .string => string
  | .ident => identifier
  | .error => unknown

/-- The kind of token that a type is of. The root is no token. -/
def kind? : NodeType → Option TokenKind
  | root => none
  | constKw => some .constKw
  | letKw => some .letKw
  | semicolon => some .semicolon
  | assign => some .assign
  | number => some .number
  | string => some .string
  | identifier => some .ident
  | unknown => some .error

def name : NodeType → String
  | root => "topNode"
  | constKw => "const"
  | letKw => "let"
  | semicolon => "semicolon"
  | assign => "assign"
  | number => "number"
  | string => "string"
  | identifier => "identifier"
  | unknown => "unknown"

def style : NodeType → Option Style
  | constKw | letKw => some .keyword
  | assign => some .operator
  | number => some .number
  | string => some .string
  | identifier => some .variableName
  | root | semicolon | unknown => none

theorem ofId?_id (t : NodeType) : ofId? t.id = some t := by
  cases t <;> rfl

theorem kind?_ofKind (k : TokenKind) : (ofKind k).kind? = some k := by
  cases k <;> rfl

theorem ofKind_injective {j k : TokenKind} (h : ofKind j = ofKind k) : j = k := by
  rw [← Option.some_inj, ← kind?_ofKind j, ← kind?_ofKind k, h]

end NodeType

end FlatSyntax

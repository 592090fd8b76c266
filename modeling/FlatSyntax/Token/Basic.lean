import FlatSyntax.Text.Boundary

namespace FlatSyntax

/-- A half-open range of byte offsets. -/
structure Span where
  start : Nat
  stop : Nat
  ordered : start ≤ stop := by omega
  deriving DecidableEq

namespace Span

/-- The span with the given ends, unless they are inverted. -/
def ofBounds? (start stop : Nat) : Option Span :=
  if h : start ≤ stop then some ⟨start, stop, h⟩ else none

/-- The span with the given ends, empty at its start when they are inverted. -/
def collapse (start stop : Nat) : Span :=
  ⟨start, max start stop, Nat.le_max_left ..⟩

/-- What two spans share, which is an empty span where they only touch. -/
def meet? (r s : Span) : Option Span :=
  ofBounds? (max r.start s.start) (min r.stop s.stop)

def whole (t : Text) : Span :=
  ⟨0, t.size, Nat.zero_le _⟩

def slice? (r : Span) (t : Text) : Option Text :=
  t.slice? r.start r.stop

/-- The span with both ends moved down to boundaries of the text. -/
def floor (r : Span) (t : Text) : Span :=
  ⟨t.floor r.start, t.floor r.stop, t.floor_mono r.ordered⟩

/-- The least span between boundaries around what the span has of the text. -/
def widen (r : Span) (t : Text) : Span :=
  ⟨t.floor r.start, t.ceil r.stop, t.floor_le_ceil r.ordered⟩

/-- The span moved forward by a number of bytes. -/
def shift (n : Nat) (r : Span) : Span :=
  ⟨r.start + n, r.stop + n, Nat.add_le_add_right r.ordered n⟩

def describe (r : Span) : Text :=
  Text.decimal r.start ++ '.' :: '.' :: Text.decimal r.stop

end Span

inductive TokenKind where
  | constKw
  | letKw
  | semicolon
  | assign
  | number
  | string
  | ident
  | error
  deriving DecidableEq

namespace TokenKind

/-- All kinds in the order of their indices. -/
def all : List TokenKind :=
  [constKw, letKw, semicolon, assign, number, string, ident, error]

def index : TokenKind → Nat
  | constKw => 0
  | letKw => 1
  | semicolon => 2
  | assign => 3
  | number => 4
  | string => 5
  | ident => 6
  | error => 7

/-- The kind with the given index. An index that no kind has stands for an error. -/
def ofIndex (i : Nat) : TokenKind :=
  all[i]?.getD error

def isKeyword : TokenKind → Bool
  | constKw | letKw => true
  | _ => false

def name : TokenKind → String
  | constKw => "CONST_KW"
  | letKw => "LET_KW"
  | semicolon => "SEMICOLON"
  | assign => "ASSIGN"
  | number => "NUMBER"
  | string => "STRING"
  | ident => "IDENT"
  | error => "ERROR"

theorem ofIndex_index (k : TokenKind) : ofIndex k.index = k := by
  cases k <;> rfl

theorem ofIndex_of_le {i : Nat} (h : 8 ≤ i) : ofIndex i = error := by
  simp [ofIndex, all, h]

end TokenKind

structure Token where
  kind : TokenKind
  span : Span
  deriving DecidableEq

namespace Token

/-- The token that an outside tokenizer reports as three bare numbers. -/
def ofRaw (index start stop : Nat) : Token :=
  ⟨.ofIndex index, .collapse start stop⟩

/-- The token moved forward by a number of bytes. -/
def shift (n : Nat) (t : Token) : Token :=
  ⟨t.kind, t.span.shift n⟩

end Token

end FlatSyntax

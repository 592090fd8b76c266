import FlatSyntax.Diagnostic.Excerpt
import FlatSyntax.Tree.Consumers

namespace FlatSyntax

/-- How a piece of a drawing stands out. -/
inductive Emphasis where
  | plain
  | red
  | blue
  | bold
  deriving DecidableEq

def Emphasis.codes : Emphasis → String
  | plain => ""
  | red => "\x1b[1m\x1b[91m"
  | blue => "\x1b[1m\x1b[94m"
  | bold => "\x1b[1m"

structure Piece where
  emphasis : Emphasis
  text : Text

/-- The piece with terminal codes around it. -/
def Piece.styled (p : Piece) : Text :=
  if p.emphasis = .plain then p.text
  else p.emphasis.codes.toList ++ p.text ++ "\x1b[0m".toList

structure Cell where
  emphasis : Emphasis
  char : Char
  deriving DecidableEq

/-- A line of a drawing. Each character takes one cell, whatever it takes on a terminal. -/
abbrev Row := List Cell

namespace Row

def ofText (e : Emphasis) (t : Text) : Row :=
  t.map (Cell.mk e)

def blanks (n : Nat) : Row :=
  List.replicate n ⟨.plain, ' '⟩

/-- The row with a text written over it from a column on, beyond its end after blanks. -/
def put (r : Row) (column : Nat) (e : Emphasis) (t : Text) : Row :=
  if t = [] then r
  else r.take column ++ blanks (column - r.length) ++ ofText e t ++ r.drop (column + t.length)

def add (r : Row) (e : Emphasis) (t : Text) : Row :=
  r ++ ofText e t

def text (r : Row) : Text :=
  r.map Cell.char

/-- The longest runs of cells that stand out alike. -/
def pieces : Row → List Piece
  | [] => []
  | c :: cs =>
    match pieces cs with
    | [] => [⟨c.emphasis, [c.char]⟩]
    | p :: ps =>
      if p.emphasis = c.emphasis then ⟨c.emphasis, c.char :: p.text⟩ :: ps
      else ⟨c.emphasis, [c.char]⟩ :: p :: ps

def styled (r : Row) : Text :=
  r.pieces.flatMap Piece.styled

end Row

namespace Diagnostic

def terminalWidth : Nat := 140

def ellipsis : Text := ['.', '.', '.']

def heading (d : Diagnostic) : Row :=
  let r := Row.ofText .red "error".toList
  if d.message = [] then r else (r.add .plain [':', ' ']).add .bold d.message

/-- The place of a diagnostic, where line numbers have so many digits. -/
def origin (digits : Nat) (path : Text) (line column : Nat) : Row :=
  ((Row.put [] digits .blue "-->".toList).put (digits + 4) .plain path).add .plain
    (':' :: Text.decimal line ++ ':' :: Text.decimal column)

def gutter (digits : Nat) : Row :=
  Row.put [] (digits + 1) .blue ['|']

/-- The line itself, to the right of its number. -/
def quotation (number : Text) (c : Cutting) : Row :=
  let start := number.length + 3
  let r := (Row.ofText .blue (number ++ " |".toList)).put start .plain c.shown
  let r := if c.isCutLeft then r.put start .blue ellipsis else r
  if c.isCutRight then
    r.put (start + Text.extent Text.cutWidth c.shown - ellipsis.length) .blue ellipsis
  else r

/-- The label and the marks. Of a line that is cut they move to the left with it, the label up to
the start of the line and each mark up to the edge. -/
def annotation (d : Diagnostic) (digits : Nat) (x : Excerpt) (c : Cutting) : Row :=
  let start := digits + 3
  let r := (gutter digits).put (start + (x.pastMarks + 1 - c.shift)) .red d.label
  (List.range' x.firstMark (x.pastMarks - x.firstMark)).foldl
    (fun r column => r.put (start + column - c.shift) .red ['^']) r

/-- The rows of a diagnostic over an excerpt of its document. An empty line is not shown. -/
def snippet (d : Diagnostic) (path : Text) (x : Excerpt) : List Row :=
  if x.line = [] then [d.heading, origin 0 path 1 1, gutter 0, gutter 0]
  else
    let number := Text.decimal x.lineNumber
    let digits := number.length
    let c := Cutting.ofExcerpt x d.label
      (terminalWidth - (3 + (Text.decimal (x.lineNumber + 1)).length))
    [d.heading,
     origin digits path x.lineNumber (1 + x.head.length),
     gutter digits,
     quotation number c,
     d.annotation digits x c,
     gutter digits]

/-- The rows of a diagnostic, joined by line breaks, each written as `write` says. -/
def renderWith (write : Row → Text) (d : Diagnostic) (path text : Text) : Text :=
  List.intercalate ['\n'] ((d.snippet path (.around text d.span)).map write)

def renderPlain : Diagnostic → (path text : Text) → Text :=
  renderWith Row.text

def renderStyled : Diagnostic → (path text : Text) → Text :=
  renderWith Row.styled

end Diagnostic

end FlatSyntax

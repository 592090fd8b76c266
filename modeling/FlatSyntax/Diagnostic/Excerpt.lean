import FlatSyntax.Text.Width
import FlatSyntax.Token.Basic

namespace FlatSyntax

/-- The line of a document that a span starts in, cut at the ends of the span. -/
structure Excerpt where
  lineNumber : Nat
  head : Text
  marked : Text
  tail : Text

namespace Excerpt

/-- The part of a text after its last line break. -/
def lastLine (t : Text) : Text :=
  (t.reverse.takeWhile (· ≠ '\n')).reverse

/-- The excerpt around a span, widened to boundaries of the text first. -/
def around (text : Text) (span : Span) : Excerpt :=
  let s := span.widen text
  let before := (text.slice? 0 s.start).getD []
  let after := (text.slice? s.stop text.size).getD []
  ⟨1 + before.count '\n', lastLine before, (s.slice? text).getD [], after.takeWhile (· ≠ '\n')⟩

def line (x : Excerpt) : Text :=
  x.head ++ x.marked ++ x.tail

/-- The column of the first mark. -/
def firstMark (x : Excerpt) : Nat :=
  Text.columns x.head

/-- The column after the last mark. There is at least one mark. -/
def pastMarks (x : Excerpt) : Nat :=
  x.firstMark + max 1 (Text.columns x.marked)

/-- The column after the label, which follows the marks after a blank. -/
def pastLabel (x : Excerpt) (label : Text) : Nat :=
  x.pastMarks + label.size + 1

/-- The columns of the blanks that the line starts with. -/
def indentation (x : Excerpt) : Nat :=
  Text.extent (fun c => if c = '\t' then 4 else 1) (x.line.takeWhile Text.isBlank)

end Excerpt

/-- The stretch of a line to draw. -/
structure Window where
  left : Nat
  right : Nat
  deriving DecidableEq

namespace Window

/-- Whether the ends are in order and no further apart than there is room. -/
def fits (room : Nat) (w : Window) : Bool :=
  w.left ≤ w.right && w.right - w.left ≤ room

/-- The columns kept free on either side of what has to be seen. -/
def spare : Nat := 6

/-- The whole line but for most of a deep indentation. -/
def whole (x : Excerpt) : Window :=
  let indent := x.indentation - spare
  let left := if 20 < indent then indent - 16 else 0
  ⟨left, max x.line.size left⟩

/-- A line that has no room is cut to hold the label without the indentation, the marks and the
label, the marks, or no more than the marks, whichever fits first. -/
def around (x : Excerpt) (label : Text) (room : Nat) : Window :=
  let indent := x.indentation - spare
  let first := x.firstMark - spare
  let last := x.pastMarks + spare
  let labelEnd := x.pastLabel label + spare
  if (whole x).fits room then whole x
  else if fits room ⟨indent, labelEnd⟩ then ⟨indent, indent + room⟩
  else if fits room ⟨first, labelEnd⟩ then
    let left := first - (room - (labelEnd - first)) / 2
    ⟨left, left + room⟩
  else if fits room ⟨first, last⟩ then
    let left := first - (room - (last - first)) / 5 * 2
    ⟨left, left + room⟩
  else ⟨first, last⟩

/-- Where the window ends, less the columns kept free if it ends after the marks or the label. -/
def rightmost (w : Window) (x : Excerpt) (label : Text) : Nat :=
  if w.right = x.pastMarks + spare ∨ w.right = x.pastLabel label + spare then w.right - spare
  else w.right

end Window

/-- A line as it is drawn: the part in front that is left out, the part that is shown, and the part
that no longer fits. -/
structure Cutting where
  hidden : Text
  shown : Text
  rest : Text
  isCutRight : Bool

namespace Cutting

/-- The characters of a line in its window. A line of blanks is hidden altogether. The line is
measured by its size, so that one of many bytes can be taken for cut though all of it is shown. -/
def ofExcerpt (x : Excerpt) (label : Text) (room : Nat) : Cutting :=
  let line := Text.displayed x.line
  let w := Window.around x label room
  let left := if x.line.all Text.isBlank then line.length else min w.left line.size
  let isLong := room < line.size - w.left
  let right := if isLong then min line.size w.right else line.size
  let shown := Text.fitting (right - left) (line.drop left)
  ⟨line.take left, shown, line.drop (left + shown.length),
    isLong && w.rightmost x label < line.size⟩

def isCutLeft (c : Cutting) : Bool :=
  !c.hidden.isEmpty

/-- The columns that what is shown has moved to the left. -/
def shift (c : Cutting) : Nat :=
  Text.extent Text.cutWidth c.hidden

end Cutting

end FlatSyntax

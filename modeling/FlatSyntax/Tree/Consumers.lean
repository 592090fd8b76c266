import FlatSyntax.Text.Quoted
import FlatSyntax.Token.Stream
import FlatSyntax.Tree.Basic

namespace FlatSyntax

/-- A stretch of a document with the style it is shown in. -/
structure Highlight where
  span : Span
  style : Style
  deriving DecidableEq

/-- A complaint about a stretch of a document, with a short note to print under it. -/
structure Diagnostic where
  message : Text
  label : Text
  span : Span
  deriving DecidableEq

namespace Diagnostic

/-- The stretch is no token. When it splits a character, no text is quoted. -/
def unrecognized (text : Text) (span : Span) : Diagnostic where
  message := "unrecognized token `".toList ++ (span.slice? text).getD [] ++ ['`']
  label := "expected a keyword, identifier, number, string, `=` or `;`".toList
  span := span

def defectLabel : Defect → String
  | .outOfBounds _ => "token ends past the end of the document"
  | .splitsChar => "token splits a character"
  | .outOfOrder _ => "token is out of order"
  | .overlapping _ => "token overlaps its predecessor"

/-- The stream of tokens was refused because of the token at the stretch. -/
def malformed (e : StreamError) : Diagnostic where
  message := "malformed token stream: ".toList ++ e.message
  label := (defectLabel e.defect).toList
  span := e.token.span

end Diagnostic

namespace Tree

/-- The styled leaves that share a stretch with the range or touch it. -/
def highlightIn (t : Tree) (range : Span) : List Highlight :=
  t.leaves.filterMap fun i => do
    let span ← t.spanAt i
    let _ ← span.meet? range
    let style ← (t.nodeType i).style
    return ⟨span, style⟩

def highlight (t : Tree) : List Highlight :=
  ((t.spanAt t.rootIndex).map t.highlightIn).getD []

/-- A complaint about each leaf that is no token. -/
def diagnostics (t : Tree) : List Diagnostic :=
  t.leaves.filterMap fun i =>
    if t.nodeType i = .unknown then (t.spanAt i).map (.unrecognized t.text) else none

/-- A line for each node under the given one, indented by depth. A leaf shows its text. -/
def dumpLines (t : Tree) (depth i : Nat) : List Text :=
  let head := List.replicate (2 * depth) ' ' ++ t.describeNode i
  if t.hasChildren i || t.isRoot i then
    head :: (t.children i).attach.flatMap fun c => t.dumpLines (depth + 1) c.val
  else [head ++ ' ' :: Text.quoted (t.nodeText i)]
  termination_by i
  decreasing_by exact lt_of_mem_children c.property

def dump (t : Tree) : Text :=
  (t.dumpLines 0 t.rootIndex).flatMap fun l => l ++ ['\n']

end Tree

end FlatSyntax

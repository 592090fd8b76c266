import FlatSyntax.Command.Arguments
import FlatSyntax.Diagnostic.Snippet
import FlatSyntax.Session

namespace FlatSyntax

/-- Why a file cannot be read. -/
inductive ReadFault where
  | notFound
  | isDirectory
  | notUtf8
  | other (reason : Text)
  deriving DecidableEq

def ReadFault.message : ReadFault → Text
  | notFound => "No such file or directory (os error 2)".toList
  | isDirectory => "Is a directory (os error 21)".toList
  | notUtf8 => "stream did not contain valid UTF-8".toList
  | other reason => reason

/-- What can be read: the bytes behind each path. -/
abbrev Files := Text → Except ReadFault ByteArray

/-- The text behind a path. Its bytes must be UTF-8. -/
def Files.text (files : Files) (path : Text) : Except ReadFault Text :=
  (files path).bind fun bytes =>
    match String.fromUTF8? bytes with
    | some s => .ok s.toList
    | none => .error .notUtf8

/-- What a command prints and the code it ends with. -/
structure Outcome where
  code : Nat
  stdout : Text
  stderr : Text
  deriving DecidableEq

namespace Command

def lines (ls : List Text) : Text :=
  ls.flatMap fun l => l ++ ['\n']

/-- A record as one line of four numbers. -/
def recordLine (r : Record) : Text :=
  List.intercalate [' '] (r.words.map Text.decimal)

def treeOutcome (path text : Text) (strict raw : Bool) : Outcome :=
  match Tree.buildUnder (if strict then .reject else .normalize) text (tokenize text) with
  | .ok t => ⟨0, if raw then lines (t.records.map recordLine) else t.dump, []⟩
  | .error e => ⟨1, [], lines [(Diagnostic.malformed e).renderStyled path text]⟩

def highlightLine (text : Text) (h : Highlight) : Text :=
  h.span.describe ++ ' ' :: h.style.name.toList ++
    ' ' :: Text.quoted ((h.span.slice? text).getD [])

/-- A highlight as a JSON object on lines of its own. -/
def highlightObject (text : Text) (h : Highlight) : Text :=
  List.intercalate ['\n']
    ["  \x7b".toList,
     "    \"start\": ".toList ++ Text.decimal h.span.start ++ [','],
     "    \"end\": ".toList ++ Text.decimal h.span.stop ++ [','],
     "    \"tag\": ".toList ++ Text.jsonString h.style.name.toList ++ [','],
     "    \"text\": ".toList ++ Text.jsonString ((h.span.slice? text).getD []),
     "  \x7d".toList]

def highlightArray (text : Text) : List Highlight → Text
  | [] => "[]".toList
  | hs =>
    "[\n".toList ++ List.intercalate ",\n".toList (hs.map (highlightObject text)) ++
      "\n]".toList

def highlightOutcome (text : Text) (json : Bool) : Outcome :=
  let hs := (parse text).highlight
  ⟨0, lines (if json then [highlightArray text hs] else hs.map (highlightLine text)), []⟩

/-- Complaints are not printed as a result but reported, and make the check fail. -/
def checkOutcome (path text : Text) : Outcome :=
  let ds := (parse text).diagnostics
  ⟨if ds.isEmpty then 0 else 1, [], lines (ds.map fun d => d.renderStyled path text)⟩

def nodeTypeLine (t : NodeType) : Text :=
  Text.decimal t.id ++ ' ' :: t.name.toList ++
    ' ' :: (t.style.elim "-" Style.name).toList

def unreadable (path : Text) (fault : ReadFault) : Outcome :=
  ⟨1, [], lines ["Error: failed to read `".toList ++ path ++ ['`'], [], "Caused by:".toList,
    "    ".toList ++ fault.message]⟩

def onFile (files : Files) (path : Text) (f : Text → Outcome) : Outcome :=
  match files.text path with
  | .ok text => f text
  | .error fault => unreadable path fault

/-- The path of the file that a command reads. -/
def path? : Command → Option Text
  | .tree p _ _ | .highlight p _ | .check p => some p
  | .nodeTypes => none

def run (files : Files) : Command → Outcome
  | .tree path strict raw => onFile files path fun text => treeOutcome path text strict raw
  | .highlight path json => onFile files path fun text => highlightOutcome text json
  | .check path => onFile files path (checkOutcome path)
  | .nodeTypes => ⟨0, lines (NodeType.all.map nodeTypeLine), []⟩

def versionLine : String := "zephyr 0.1.0"

def usageLines : String :=
  "Usage: zephyr [-v] tree [--strict] [--raw] PATH\n" ++
  "       zephyr [-v] highlight [--json] PATH\n" ++
  "       zephyr [-v] check PATH\n" ++
  "       zephyr [-v] node-types"

def Halt.outcome : Halt → Outcome
  | .help => ⟨0, lines [usageLines.toList], []⟩
  | .version => ⟨0, lines [versionLine.toList], []⟩
  | .usage e => ⟨2, [], lines ["error: ".toList ++ e.message, usageLines.toList]⟩

/-- What a list of arguments does. -/
def runArguments (files : Files) (arguments : List Text) : Outcome :=
  match ofArguments arguments with
  | .ok c => c.run files
  | .error halt => halt.outcome

end Command

end FlatSyntax

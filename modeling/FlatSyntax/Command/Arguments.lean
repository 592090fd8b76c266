import FlatSyntax.Text.Basic

namespace FlatSyntax

inductive Command where
  | tree (path : Text) (strict raw : Bool)
  | highlight (path : Text) (json : Bool)
  | check (path : Text)
  | nodeTypes
  deriving DecidableEq

namespace Command

/-- An option that only some commands take, and at most once. -/
inductive Flag where
  | strict
  | raw
  | json
  deriving DecidableEq

def Flag.ofName? (name : Text) : Option Flag :=
  if name = "strict".toList then some .strict
  else if name = "raw".toList then some .raw
  else if name = "json".toList then some .json
  else none

inductive Verb where
  | tree
  | highlight
  | check
  | nodeTypes
  deriving DecidableEq

namespace Verb

def ofName? (name : Text) : Option Verb :=
  if name = "tree".toList then some .tree
  else if name = "highlight".toList then some .highlight
  else if name = "check".toList then some .check
  else if name = "node-types".toList then some .nodeTypes
  else none

def takesPath : Verb → Bool
  | .nodeTypes => false
  | _ => true

def flags : Verb → List Flag
  | .tree => [.strict, .raw]
  | .highlight => [.json]
  | .check | .nodeTypes => []

end Verb

/-- How arguments can fail to name a command. -/
inductive UsageError where
  | unexpected (argument : Text)
  | repeated (argument : Text)
  | missingPath
  | missingCommand
  deriving DecidableEq

def UsageError.message : UsageError → Text
  | unexpected a => "unexpected argument '".toList ++ a ++ ['\'']
  | repeated a => "repeated argument '".toList ++ a ++ ['\'']
  | missingPath => "a path is required".toList
  | missingCommand => "a command is required".toList

/-- What ends the reading of arguments before there is a command. -/
inductive Halt where
  | help
  | version
  | usage (e : UsageError)
  deriving DecidableEq

/-- The arguments of a command read so far. -/
structure Given where
  flags : List Flag
  path : Option Text

namespace Given

def addFlag (g : Given) (v : Verb) (argument name : Text) : Except Halt Given :=
  match Flag.ofName? name with
  | none => .error (.usage (.unexpected argument))
  | some f =>
    if f ∉ v.flags then .error (.usage (.unexpected argument))
    else if f ∈ g.flags then .error (.usage (.repeated argument))
    else .ok ⟨f :: g.flags, g.path⟩

def addPath (g : Given) (v : Verb) (argument : Text) : Except Halt Given :=
  if v.takesPath && g.path.isNone then .ok ⟨g.flags, some argument⟩
  else .error (.usage (.unexpected argument))

def command (g : Given) : Verb → Except Halt Command
  | .nodeTypes => .ok .nodeTypes
  | v =>
    match v, g.path with
    | _, none => .error (.usage .missingPath)
    | .tree, some p => .ok (.tree p (.strict ∈ g.flags) (.raw ∈ g.flags))
    | .highlight, some p => .ok (.highlight p (.json ∈ g.flags))
    | _, some p => .ok (.check p)

end Given

/-- The letters after a single dash. A `v` asks for more to be told, which changes no result, so
the first other letter decides. -/
def shortLetters (version : Bool) : Text → Except Halt Unit
  | [] => .ok ()
  | c :: cs =>
    if c = 'v' then shortLetters version cs
    else if c = 'h' then .error .help
    else if c = 'V' ∧ version then .error .version
    else .error (.usage (.unexpected ['-', c]))

/-- The arguments after the name of a command. After `--` there are no options. -/
def readArguments (v : Verb) (options : Bool) (g : Given) : List Text → Except Halt Given
  | [] => .ok g
  | a :: as =>
    match options, a with
    | true, ['-', '-'] => readArguments v false g as
    | true, '-' :: '-' :: name =>
      if name = "verbose".toList then readArguments v options g as
      else if name = "help".toList then .error .help
      else (g.addFlag v a name).bind fun g => readArguments v options g as
    | true, '-' :: c :: cs =>
      (shortLetters false (c :: cs)).bind fun _ => readArguments v options g as
    | _, _ => (g.addPath v a).bind fun g => readArguments v options g as

/-- The arguments after `help`: at most the name of a command to be told about. Here there are no
options. -/
def helpOn : List Text → Halt
  | [] => .help
  | a :: as =>
    if a = "help".toList ∨ (Verb.ofName? a).isSome then
      as.head?.elim .help fun b => .usage (.unexpected b)
    else .usage (.unexpected a)

/-- The command that a list of arguments names. -/
def ofArguments : List Text → Except Halt Command
  | [] => .error (.usage .missingCommand)
  | a :: as =>
    match a with
    | ['-', '-'] => .error (.usage (as.head?.elim .missingCommand .unexpected))
    | '-' :: '-' :: name =>
      if name = "verbose".toList then ofArguments as
      else if name = "help".toList then .error .help
      else if name = "version".toList then .error .version
      else .error (.usage (.unexpected a))
    | '-' :: c :: cs => (shortLetters true (c :: cs)).bind fun _ => ofArguments as
    | _ =>
      if a = "help".toList then .error (helpOn as)
      else
        match Verb.ofName? a with
        | none => .error (.usage (.unexpected a))
        | some v => (readArguments v true ⟨[], none⟩ as).bind fun g => g.command v

end Command

end FlatSyntax

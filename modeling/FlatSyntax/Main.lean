import FlatSyntax.Command.Run

namespace FlatSyntax.Command

def readFault : IO.Error → ReadFault
  | .noFileOrDirectory .. => .notFound
  | .inappropriateType .. => .isDirectory
  | e => .other e.toString.toList

def readFile (path : Text) : IO (Except ReadFault ByteArray) := do
  try
    return .ok (← IO.FS.readBinFile (String.ofList path))
  catch e =>
    return .error (readFault e)

end FlatSyntax.Command

def main (arguments : List String) : IO UInt32 := do
  let arguments := arguments.map String.toList
  let path := (FlatSyntax.Command.ofArguments arguments).toOption.bind FlatSyntax.Command.path?
  let bytes ← FlatSyntax.Command.readFile (path.getD [])
  let outcome := FlatSyntax.Command.runArguments (fun _ => bytes) arguments
  IO.print (String.ofList outcome.stdout)
  IO.eprint (String.ofList outcome.stderr)
  return outcome.code.toUInt32

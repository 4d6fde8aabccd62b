import Schemata.Command.Run

/-!
# The program

Reads the files of a call, prints the answer, and reports failures on the error output.
-/
namespace Schemata

/-- The fault behind an error in reading a file. The number of an error may have either
sign. -/
def FileFault.ofError : IO.Error → FileFault
  | .noFileOrDirectory .. => .missing
  | .inappropriateType _ number _ =>
      if number = 21 || number = -21 then .directory else .notDirectory
  | .invalidArgument filename number text =>
      if number = 36 || number = -36 then .nameTooLong
      else .other (toString (IO.Error.invalidArgument filename number text))
  | error => .other (toString error)

def readText (path : String) : IO (Except FileFault String) := do
  try
    match String.fromUTF8? (← IO.FS.readBinFile path) with
    | some text => return .ok text
    | none => return .error .notText
  catch error => return .error (.ofError error)

def usage : String :=
  "usage: docmeta [-c FILE] [-v] entities|roles|schema|project FILE [-e ENTITY] " ++
    "[--version VERSION] [-p PROJECTION] [FILE]"

def respondTo (call : Command.Call) : IO Command.Outcome := do
  let texts ← call.files.mapM fun path => return (path, ← readText path)
  return Command.respond (fun path => (texts.lookup path).getD (.error .missing)) call

def finish (outcome : Command.Outcome) : IO UInt32 := do
  IO.print outcome.output
  if let some report := outcome.report? then IO.eprintln ("Error: " ++ report)
  return outcome.code.toUInt32

end Schemata

def main (arguments : List String) : IO UInt32 := do
  match Schemata.Command.Call.ofArguments? arguments with
  | none =>
      IO.eprintln Schemata.usage
      Schemata.finish .misused
  | some call => Schemata.finish (← Schemata.respondTo call)

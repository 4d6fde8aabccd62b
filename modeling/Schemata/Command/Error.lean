import Schemata.Json.Reader
import Schemata.Metadata.Error
import Schemata.Projector.Compile

/-!
# Command failures

Why a command gives no answer: a cause, and what was being done when it arose.
-/
namespace Schemata

inductive FileFault where
  | missing
  | notDirectory
  | directory
  | nameTooLong
  | notText
  | other (reason : String)

def FileFault.message : FileFault → String
  | .missing => "No such file or directory (os error 2)"
  | .notDirectory => "Not a directory (os error 20)"
  | .directory => "Is a directory (os error 21)"
  | .nameTooLong => "File name too long (os error 36)"
  | .notText => "stream did not contain valid UTF-8"
  | .other reason => reason

inductive CommandError where
  | unreadable (path : String) (fault : FileFault)
  | unparsable (path : String) (error : Json.SyntaxError)
  | projectionText (error : Json.SyntaxError)
  | document (error : MetadataError)
  | registration (key : String) (error : MetadataError)
  | registry (error : MetadataError)
  | declaration (error : ProjectionError)
  | compilation (error : ProjectionError)
  | projection (error : ProjectionError)

namespace CommandError

def activity? : CommandError → Option String
  | .unreadable path _ => some ("Failed to read " ++ path)
  | .unparsable path _ => some ("Failed to parse " ++ path)
  | .projectionText _ => some "Failed to parse --projection"
  | .document _ => some "Failed to parse metadata"
  | .registration key _ => some ("Failed to register " ++ key)
  | .registry _ => none
  | .declaration _ => some "Invalid projection"
  | .compilation _ => some "Failed to compile projection"
  | .projection _ => none

def cause : CommandError → String
  | .unreadable _ fault => fault.message
  | .unparsable _ error => error.message
  | .projectionText error => error.message
  | .document error => error.message
  | .registration _ error => error.message
  | .registry error => error.message
  | .declaration error => error.message
  | .compilation error => error.message
  | .projection error => error.message

def message (error : CommandError) : String :=
  match error.activity? with
  | none => error.cause
  | some activity => activity ++ ": " ++ error.cause

def indented (text : String) : String :=
  "    " ++ "\n    ".intercalate ((text.toList.splitOn '\n').map String.ofList)

def report (error : CommandError) : String :=
  match error.activity? with
  | none => error.cause
  | some activity => activity ++ "\n\nCaused by:\n" ++ indented error.cause

end CommandError
end Schemata

import Schemata.Command.Answer
import Schemata.Command.Line
import Schemata.Config.File

/-!
# Running commands

A call is answered from the texts of its files: an answer on the output, or a failure.
-/
namespace Schemata.Command

abbrev Files := String → Except FileFault String

def readFile (files : Files) (path : String) : Except CommandError Json := do
  let text ← (files path).mapError (.unreadable path)
  (Json.read text).mapError (.unparsable path)

def answer (files : Files) (config : Config) (request : Request) : Except CommandError Json := do
  let load (metadata : String) : Except CommandError Registry := do
    loadRegistry config (← readFile files metadata)
  match request with
  | .entities metadata => return entities (← load metadata)
  | .roles metadata => return roles (← load metadata)
  | .schema metadata entity version => schema (← load metadata) entity version
  | .project metadata entity version projection document =>
      let registry ← load metadata
      let projection ← (Json.read projection).mapError .projectionText
      project registry entity version projection (← readFile files document)

inductive Outcome where
  | misused
  | failed (error : CommandError)
  | answered (text : String)

def respond (files : Files) (call : Call) : Outcome :=
  match answer files (Config.load (files call.config).toOption) call.request with
  | .ok value => .answered (value.pretty ++ "\n")
  | .error error => .failed error

def run (files : Files) (arguments : List String) : Outcome :=
  match Call.ofArguments? arguments with
  | none => .misused
  | some call => respond files call

namespace Outcome

def code : Outcome → Nat
  | misused => 2
  | failed _ => 1
  | answered _ => 0

def output : Outcome → String
  | answered text => text
  | _ => ""

def report? : Outcome → Option String
  | failed error => some error.report
  | _ => none

end Outcome
end Schemata.Command

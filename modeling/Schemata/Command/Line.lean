/-!
# Command lines

The arguments of a call: options for all commands, the name of a command, and the options and
files of that command.
-/
namespace Schemata.Command

inductive Request where
  | entities (metadata : String)
  | roles (metadata : String)
  | schema (metadata entity : String) (version : Option String)
  | project (metadata entity : String) (version : Option String)
      (projection document : String)
deriving DecidableEq

/-- A call: the settings file, whether to say more, and the command. -/
structure Call where
  config : String
  verbose : Bool
  request : Request
deriving DecidableEq

/-- An option by its names. A switch stands alone, another option comes with a value. -/
structure CallOption where
  name : String
  letter : Option Char
  isSwitch : Bool

def generalOptions : List CallOption :=
  [⟨"config", some 'c', false⟩, ⟨"verbose", some 'v', true⟩]

def entityOptions : List CallOption :=
  [⟨"entity", some 'e', false⟩, ⟨"version", none, false⟩]

def projectOptions : List CallOption :=
  entityOptions ++ [⟨"projection", some 'p', false⟩]

/-- What has been met so far: values by option name, and files. A switch that was met has an
empty value. -/
structure Met where
  values : List (String × String)
  files : List String

namespace Met

def nothing : Met := ⟨[], []⟩

def addValue (met : Met) (name value : String) : Option Met :=
  if (met.values.lookup name).isSome then none
  else some { met with values := met.values ++ [(name, value)] }

def addFile (met : Met) (file : String) : Met :=
  { met with files := met.files ++ [file] }

def value? (met : Met) (name : String) : Option String :=
  met.values.lookup name

def path? (met : Met) (name default : String) : Option String :=
  some ((met.value? name).getD default) |>.filter (· ≠ "")

end Met

/-- What an argument leaves behind: what has been met, and the option that waits for a value
in the next argument. -/
structure Progress where
  met : Met
  waiting : Option String

/-- An argument that is read as an option. A dash alone is not. -/
def isOption (argument : String) : Bool :=
  argument.startsWith "-" && argument ≠ "-"

/-- Reads an option by its name, perhaps with a value behind an equals sign. -/
def longOption? (options : List CallOption) (met : Met) (text : List Char) : Option Progress := do
  let name := text.takeWhile (· ≠ '=')
  let option ← options.find? fun option => option.name = String.ofList name
  match text.drop name.length with
  | [] =>
      if option.isSwitch then (met.addValue option.name "").map (⟨·, none⟩)
      else some ⟨met, some option.name⟩
  | _ :: value =>
      if option.isSwitch then none
      else (met.addValue option.name (String.ofList value)).map (⟨·, none⟩)

/-- Reads options by their letters. What follows the letter of an option with a value, with or
without an equals sign, is its value. -/
def letterOptions? (options : List CallOption) (met : Met) : List Char → Option Progress
  | [] => some ⟨met, none⟩
  | letter :: rest => do
      let option ← options.find? fun option => option.letter = some letter
      if option.isSwitch then letterOptions? options (← met.addValue option.name "") rest
      else
        match rest with
        | [] => some ⟨met, some option.name⟩
        | '=' :: value => (met.addValue option.name (String.ofList value)).map (⟨·, none⟩)
        | value => (met.addValue option.name (String.ofList value)).map (⟨·, none⟩)

def option? (options : List CallOption) (met : Met) (argument : String) : Option Progress :=
  match argument.toList with
  | '-' :: '-' :: text => longOption? options met text
  | _ :: letters => letterOptions? options met letters
  | [] => none

/-- Reads the arguments of a command. After two dashes alone there are only files. -/
def arguments? (options : List CallOption) : Progress → List String → Option Met
  | ⟨met, none⟩, [] => some met
  | ⟨_, some _⟩, [] => none
  | ⟨met, some name⟩, argument :: rest => do
      if isOption argument then none
      else arguments? options ⟨← met.addValue name argument, none⟩ rest
  | ⟨met, none⟩, argument :: rest => do
      if argument = "--" then some (rest.foldl Met.addFile met)
      else if isOption argument then
        arguments? options (← option? options met argument) rest
      else arguments? options ⟨met.addFile argument, none⟩ rest

/-- Reads the options in front of the command, and gives the name of the command and what
follows it. -/
def command? (options : List CallOption) :
    Progress → List String → Option (Met × String × List String)
  | _, [] => none
  | ⟨met, some name⟩, argument :: rest => do
      if isOption argument then none
      else command? options ⟨← met.addValue name argument, none⟩ rest
  | ⟨met, none⟩, argument :: rest => do
      if argument = "--" then none
      else if isOption argument then command? options (← option? options met argument) rest
      else some (met, argument, rest)

/-- The arguments of a command with exactly some number of files, none of which is empty. -/
def argumentsWith? (options : List CallOption) (files : Nat) (arguments : List String) :
    Option Met :=
  (arguments? options ⟨.nothing, none⟩ arguments).filter fun met =>
    met.files.length = files && !met.files.contains ""

def request? (name : String) (arguments : List String) : Option Request := do
  match name with
  | "entities" =>
      let met ← argumentsWith? [] 1 arguments
      return .entities (← met.files[0]?)
  | "roles" =>
      let met ← argumentsWith? [] 1 arguments
      return .roles (← met.files[0]?)
  | "schema" =>
      let met ← argumentsWith? entityOptions 1 arguments
      return .schema (← met.files[0]?) (← met.value? "entity") (met.value? "version")
  | "project" =>
      let met ← argumentsWith? projectOptions 2 arguments
      return .project (← met.files[0]?) (← met.value? "entity") (met.value? "version")
        (← met.value? "projection") (← met.files[1]?)
  | _ => none

def defaultConfig : String :=
  "docmeta.toml"

def Call.ofArguments? (arguments : List String) : Option Call := do
  let (met, name, rest) ← command? generalOptions ⟨.nothing, none⟩ arguments
  let config ← met.path? "config" defaultConfig
  return ⟨config, (met.value? "verbose").isSome, ← request? name rest⟩

def Request.files : Request → List String
  | .entities metadata => [metadata]
  | .roles metadata => [metadata]
  | .schema metadata _ _ => [metadata]
  | .project metadata _ _ _ document => [metadata, document]

def Call.files (call : Call) : List String :=
  call.config :: call.request.files

end Schemata.Command

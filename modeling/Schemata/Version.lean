import Schemata.Json.Shape

/-!
# Versions

The version record of a schema. A version number is three rows of digits with dots between
them, perhaps followed by a dash and a qualifier on one line.
-/
namespace Schemata

structure Version where
  number : String
  extendsVersions : List String
  changelog : Option String
deriving DecidableEq

namespace Version

def ofNumber (number : String) : Version :=
  ⟨number, [], none⟩

/-- What follows a first row of digits; there is none if the text starts with no digit. -/
def afterDigits? (text : List Char) : Option (List Char) :=
  if text.head?.any Char.isDigit then some (text.dropWhile Char.isDigit) else none

def afterDot? : List Char → Option (List Char)
  | '.' :: rest => some rest
  | _ => none

/-- Nothing, or a dash and a qualifier on one line. -/
def isQualifier : List Char → Bool
  | [] => true
  | '-' :: rest => !rest.contains '\n'
  | _ => false

def isNumber (text : String) : Bool :=
  ((((((afterDigits? text.toList).bind afterDot?).bind afterDigits?).bind afterDot?).bind
    afterDigits?).any isQualifier)

/-- The number, then what is there of the versions that are extended and the changelog. -/
def toJson (version : Version) : Json :=
  .object ([("value", .string version.number)]
    ++ (if version.extendsVersions.isEmpty then []
        else [("extendsVersions", .ofTexts version.extendsVersions)])
    ++ (version.changelog.toList.map fun text => ("changelog", .string text)))

/-- A version record whose number has not been met yet. -/
structure Draft where
  number : Option String
  extendsVersions : List String
  changelog : Option String

def Draft.put (draft : Draft) (name : String) (value : Json) : Except ShapeFault Draft := do
  match name with
  | "value" => return { draft with number := some (← value.asText) }
  | "extendsVersions" => return { draft with extendsVersions := ← value.asList Json.asText }
  | "changelog" => return { draft with changelog := ← value.asOptional Json.asText }
  | _ => return draft

def ofMembers (members : Members) : Except ShapeFault Version := do
  let draft ← Json.readFields Draft.put ⟨none, [], none⟩ members
  match draft.number with
  | none => throw (.missingField "value")
  | some number => return ⟨number, draft.extendsVersions, draft.changelog⟩

end Version
end Schemata

import Schemata.Json.Basic
import Schemata.Binary64.Shortest

/-!
# JSON text of a value

`Json.compact` writes a value without blanks, `Json.pretty` with one member or item to a line.
Both keep the order of members and escape in strings only what must be escaped.
-/
namespace Schemata

/-- Doubles are written positionally when the leading digit stands between `10 ^ -5` and
`10 ^ 15`, with a signed exponent otherwise. -/
def Number.layout : Binary64.DecimalLayout :=
  ⟨-5, 15, true, .even⟩

/-- The text of a number; a double always shows a point or an exponent. -/
def Number.render : Number → String
  | .int value _ => toString value
  | .double value _ => value.render Number.layout

namespace Json

def hexDigit (n : Nat) : Char :=
  Nat.digitChar (n % 16)

def escaped (c : Char) : String :=
  if c = '"' then "\\\""
  else if c = '\\' then "\\\\"
  else if c = '\n' then "\\n"
  else if c = '\r' then "\\r"
  else if c = '\t' then "\\t"
  else if c.toNat = 8 then "\\b"
  else if c.toNat = 12 then "\\f"
  else if c.toNat < 32 then
    "\\u00" ++ String.ofList [hexDigit (c.toNat / 16), hexDigit c.toNat]
  else c.toString

def quoted (text : String) : String :=
  text.toList.foldl (fun out c => out ++ escaped c) "\"" ++ "\""

mutual
def writeCompact (out : String) : Json → String
  | null => out ++ "null"
  | bool true => out ++ "true"
  | bool false => out ++ "false"
  | number value => out ++ value.render
  | string value => out ++ quoted value
  | array items => writeItems (out ++ "[") items ++ "]"
  | object members => writeMembers (out ++ "\x7b") members ++ "\x7d"

def writeItems (out : String) : List Json → String
  | [] => out
  | item :: [] => writeCompact out item
  | item :: rest => writeItems (writeCompact out item ++ ",") rest

def writeMembers (out : String) : List (String × Json) → String
  | [] => out
  | (name, value) :: [] => writeCompact (out ++ quoted name ++ ":") value
  | (name, value) :: rest =>
      writeMembers (writeCompact (out ++ quoted name ++ ":") value ++ ",") rest
end

def compact (value : Json) : String :=
  writeCompact "" value

/-- A line break and the indentation of a depth, two blanks to a level. -/
def newline (depth : Nat) : String :=
  String.ofList ('\n' :: List.replicate (2 * depth) ' ')

mutual
/-- Appends the indented text of a value that stands at a depth. -/
def writePretty (depth : Nat) (out : String) : Json → String
  | array [] => out ++ "[]"
  | array (item :: rest) =>
      prettyItems (depth + 1) (out ++ "[") (item :: rest) ++ newline depth ++ "]"
  | object [] => out ++ "\x7b\x7d"
  | object (member :: rest) =>
      prettyMembers (depth + 1) (out ++ "\x7b") (member :: rest) ++ newline depth ++ "\x7d"
  | null => out ++ "null"
  | bool true => out ++ "true"
  | bool false => out ++ "false"
  | number value => out ++ value.render
  | string value => out ++ quoted value

def prettyItems (depth : Nat) (out : String) : List Json → String
  | [] => out
  | item :: [] => writePretty depth (out ++ newline depth) item
  | item :: rest =>
      prettyItems depth (writePretty depth (out ++ newline depth) item ++ ",") rest

def prettyMembers (depth : Nat) (out : String) : List (String × Json) → String
  | [] => out
  | (name, value) :: [] =>
      writePretty depth (out ++ newline depth ++ quoted name ++ ": ") value
  | (name, value) :: rest =>
      prettyMembers depth
        (writePretty depth (out ++ newline depth ++ quoted name ++ ": ") value ++ ",") rest
end

/-- The text of a value with two blanks of indentation to a level; empty arrays and objects
stay on their line. -/
def pretty (value : Json) : String :=
  writePretty 0 "" value

end Json
end Schemata

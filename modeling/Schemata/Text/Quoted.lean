import Schemata.Text.Blank
import Schemata.Text.Characters

/-!
# Quoted text

The form in which messages show a text: between quotes, with escapes for quotes, backslashes
and everything that would not show.
-/
namespace Schemata.Text

/-- Whether a character would not be seen by itself. -/
def isUnseen (c : Char) : Bool :=
  inRanges hiddenRanges c.toNat || inRanges fillerRanges c.toNat ||
    inRanges extendingRanges c.toNat

/-- A character inside quotes. One that would not be seen is shown by its code point in
hexadecimal. -/
def shown (c : Char) : String :=
  if c = '"' then "\\\""
  else if c = '\\' then "\\\\"
  else if c = '\n' then "\\n"
  else if c = '\r' then "\\r"
  else if c = '\t' then "\\t"
  else if c.toNat = 0 then "\\0"
  else if isUnseen c then
    "\\u\x7b" ++ String.ofList (Nat.toDigits 16 c.toNat) ++ "\x7d"
  else c.toString

def quoted (text : String) : String :=
  text.toList.foldl (fun out c => out ++ shown c) "\"" ++ "\""

/-- Some texts, already in their shown form, between brackets with commas between them. -/
def bracketed (items : List String) : String :=
  "[" ++ ", ".intercalate items ++ "]"

end Schemata.Text

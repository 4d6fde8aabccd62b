import Schemata.Toml.Literal
import Schemata.Toml.Table

/-!
# Reading a settings file

`Toml.read?` reads the text of a TOML file. Arrays and tables within braces may be nested up
to 79 deep, and a dotted key has at most 79 parts. A reader gives what it has read and what
follows it.
-/
namespace Schemata.Toml

open Schemata.Text

def isBlank (c : Char) : Bool :=
  c = ' ' || c = '\t'

def skipBlanks (text : List Char) : List Char :=
  text.dropWhile isBlank

/-- A tab, or a character that is no control character. -/
def isPrintable (c : Char) : Bool :=
  c = '\t' || (32 ≤ c.toNat && c.toNat ≠ 127)

/-- What follows an end of line at the start of a text. -/
def afterNewline? : List Char → Option (List Char)
  | '\n' :: rest => some rest
  | '\r' :: '\n' :: rest => some rest
  | _ => none

/-- The text without the comment that it may start with. -/
def skipComment : List Char → List Char
  | '#' :: rest => rest.dropWhile isPrintable
  | text => text

/-- What follows the line whose rest is blank or a comment. -/
def afterLine? (text : List Char) : Option (List Char) :=
  match skipComment (skipBlanks text) with
  | [] => some []
  | rest => afterNewline? rest

/-- Skips blanks, comments and ends of lines, for at most some number of lines. -/
def skipLines : Nat → List Char → List Char
  | 0, text => skipBlanks text
  | more + 1, text =>
      match afterNewline? (skipComment (skipBlanks text)) with
      | some rest => skipLines more rest
      | none => skipBlanks text

def skipSpace (text : List Char) : List Char :=
  skipLines text.length text

/-- The character of a code point in hexadecimal digits. -/
def hexCharacter? (width : Nat) (text : List Char) : Option (Char × List Char) := do
  let digits ← (text.take width).mapM hexValue?
  let code := digits.foldl (fun code digit => code * 16 + digit) 0
  if digits.length = width ∧ code.isValidChar then some (.ofNat code, text.drop width) else none

def escape? : List Char → Option (Char × List Char)
  | 'b' :: rest => some (.ofNat 8, rest)
  | 't' :: rest => some ('\t', rest)
  | 'n' :: rest => some ('\n', rest)
  | 'f' :: rest => some (.ofNat 12, rest)
  | 'r' :: rest => some ('\r', rest)
  | '"' :: rest => some ('"', rest)
  | '\\' :: rest => some ('\\', rest)
  | 'u' :: rest => hexCharacter? 4 rest
  | 'U' :: rest => hexCharacter? 8 rest
  | _ => none

/-- Reads a text in double quotes up to the closing quote, with at most `more` characters and
escapes. What was read stands before it in reverse. -/
def basicText? (taken : List Char) : Nat → List Char → Option (String × List Char)
  | 0, _ => none
  | _ + 1, [] => none
  | _ + 1, '"' :: rest => some (.ofList taken.reverse, rest)
  | more + 1, '\\' :: rest =>
      (escape? rest).bind fun read => basicText? (read.1 :: taken) more read.2
  | more + 1, c :: rest => if isPrintable c then basicText? (c :: taken) more rest else none

/-- Reads a text in single quotes up to the closing quote. -/
def literalText? (text : List Char) : Option (String × List Char) :=
  let content := text.takeWhile fun c => isPrintable c && c ≠ '\''
  (after? '\'' (text.drop content.length)).map fun rest => (.ofList content, rest)

/-- The text without the blanks and ends of lines that it may start with. -/
def skipFold : List Char → List Char
  | '\r' :: '\n' :: rest => skipFold rest
  | c :: rest => if isBlank c || c = '\n' then skipFold rest else c :: rest
  | [] => []

/-- What follows a line that ends in a backslash, from the next character that is neither a
blank nor an end of line. -/
def afterFold? (text : List Char) : Option (List Char) :=
  (afterNewline? (skipBlanks text)).map skipFold

/-- Reads a text of several lines up to its three closing quotes. Up to two more quotes before
them belong to the text; fewer than three quotes do not end it. -/
def longText? (quote : Char) (taken : List Char) :
    Nat → List Char → Option (String × List Char)
  | 0, _ => none
  | more + 1, text =>
      let quotes := (text.takeWhile (· = quote)).length
      if 3 ≤ quotes then
        let inside := min (quotes - 3) 2
        some (.ofList (taken.reverse ++ List.replicate inside quote), text.drop (inside + 3))
      else if 0 < quotes then
        longText? quote (List.replicate quotes quote ++ taken) more (text.drop quotes)
      else
        match afterNewline? text with
        | some rest => longText? quote ('\n' :: taken) more rest
        | none =>
            match text with
            | [] => none
            | c :: rest =>
                if c = '\\' && quote = '"' then
                  match afterFold? rest with
                  | some rest => longText? quote taken more rest
                  | none =>
                      (escape? rest).bind fun read =>
                        longText? quote (read.1 :: taken) more read.2
                else if isPrintable c then longText? quote (c :: taken) more rest
                else none

/-- Reads a text of several lines behind its opening quotes; an end of line directly behind
them does not count. -/
def ofLongText? (quote : Char) (text : List Char) : Option (String × List Char) :=
  longText? quote [] (text.length + 1) ((afterNewline? text).getD text)

def quotedText? : List Char → Option (String × List Char)
  | '"' :: '"' :: '"' :: rest => ofLongText? '"' rest
  | '\'' :: '\'' :: '\'' :: rest => ofLongText? '\'' rest
  | '"' :: rest => basicText? [] (rest.length + 1) rest
  | '\'' :: rest => literalText? rest
  | _ => none

def isKeyCharacter (c : Char) : Bool :=
  c.isAlphanum || c = '_' || c = '-'

def keyPart? : List Char → Option (String × List Char)
  | '"' :: rest => basicText? [] (rest.length + 1) rest
  | '\'' :: rest => literalText? rest
  | text =>
      let part := text.takeWhile isKeyCharacter
      if part.isEmpty then none else some (.ofList part, text.drop part.length)

/-- Reads the parts of a key, of which there are at most some number, with dots between
them. -/
def keyParts? : Nat → List Char → Option (List String × List Char)
  | 0, _ => none
  | more + 1, text => do
      let (part, text) ← keyPart? (skipBlanks text)
      match skipBlanks text with
      | '.' :: rest => do
          let (parts, rest) ← keyParts? more rest
          return (part :: parts, rest)
      | rest => return ([part], rest)

/-- How deep values may be nested, and how many parts a key may have. -/
def depthLimit : Nat := 79

def key? (text : List Char) : Option (List String × List Char) :=
  keyParts? depthLimit text

def isValueCharacter (c : Char) : Bool :=
  c.isAlphanum || c = '+' || c = '-' || c = '_' || c = '.' || c = ':'

/-- Reads a bare value. Between a date and a time there may be a blank. -/
def bareValue? (text : List Char) : Option (Item × List Char) :=
  let word := text.takeWhile isValueCharacter
  let rest := text.drop word.length
  let next := (rest.drop 1).takeWhile isValueCharacter
  if isDate word && rest.head? = some ' ' && isTimeWithOffset next then
    some (.time, rest.drop (next.length + 1))
  else if isTime word then some (.time, rest)
  else if isPlain word then some (.plain, rest)
  else none

abbrev ItemReader := List Char → Option (Item × List Char)

/-- Reads the items of an array behind its opening bracket or a comma, of which there are at
most some number. Each takes at least one character. -/
def items? (readItem : ItemReader) (taken : List Item) : Nat → ItemReader
  | 0, _ => none
  | _ + 1, ']' :: rest => some (.array taken.reverse, rest)
  | more + 1, text => do
      let (item, rest) ← readItem text
      match skipSpace rest with
      | ',' :: rest => items? readItem (item :: taken) more (skipSpace rest)
      | ']' :: rest => return (.array (item :: taken).reverse, rest)
      | _ => none

/-- Reads the pairs of a table within braces behind its opening brace or a comma, of which
there are at most some number. Each takes at least one character. -/
def pairs? (readItem : ItemReader) (table : Table) : Nat → ItemReader
  | 0, _ => none
  | more + 1, text => do
      let (key, rest) ← key? text
      let (item, rest) ← readItem (skipBlanks (← after? '=' rest))
      let table ← putDotted item key table
      match skipBlanks rest with
      | ',' :: rest => pairs? readItem table more rest
      | '\x7d' :: rest => return (.table .inline table, rest)
      | _ => none

/-- Reads a value in which arrays and tables within braces are nested up to some depth. -/
def value? (depth : Nat) (text : List Char) : Option (Item × List Char) :=
  match text with
  | '[' :: rest =>
      match depth with
      | 0 => none
      | depth + 1 => items? (value? depth) [] (rest.length + 1) (skipSpace rest)
  | '\x7b' :: rest =>
      match depth with
      | 0 => none
      | depth + 1 =>
          match skipBlanks rest with
          | '\x7d' :: rest => some (.table .inline [], rest)
          | rest => pairs? (value? depth) [] (rest.length + 1) rest
  | '"' :: _ => (quotedText? text).map fun read => (.text read.1, read.2)
  | '\'' :: _ => (quotedText? text).map fun read => (.text read.1, read.2)
  | _ => bareValue? text

def line? (text : List Char) : Option (Line × List Char) :=
  match text with
  | '[' :: '[' :: rest => do
      let (path, rest) ← key? rest
      return (.element path, ← after? ']' (← after? ']' rest))
  | '[' :: rest => do
      let (path, rest) ← key? rest
      return (.header path, ← after? ']' rest)
  | _ => do
      let (key, rest) ← key? text
      let (item, rest) ← value? depthLimit (skipBlanks (← after? '=' rest))
      return (.entry key item, rest)

def lines? : Nat → List Char → Option (List Line)
  | 0, _ => none
  | more + 1, text =>
      match skipSpace text with
      | [] => some []
      | '#' :: rest => if rest.all isPrintable then some [] else none
      | text => do
          let (line, rest) ← line? text
          let lines ← lines? more (← afterLine? rest)
          return line :: lines

/-- The text without the byte order mark that it may start with. -/
def skipMark : List Char → List Char
  | c :: rest => if c.toNat = 0xfeff then rest else c :: rest
  | [] => []

def read? (text : String) : Option Members := do
  let text := skipMark text.toList
  let lines ← lines? (text.length + 1) text
  return membersToJson (← ofLines? lines)

end Schemata.Toml

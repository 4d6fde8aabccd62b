import Schemata.Json.Basic
import Schemata.Binary64.Decimal
import Schemata.Text.Digits
import Schemata.Text.Utf8

/-!
# Reading JSON text

`Json.read` reads a whole text into a value or says what is wrong with it and where. A name
that occurs twice in an object keeps its first place and its last value. Arrays and objects
may be nested up to 127 deep. Positions are counted in bytes of UTF-8.
-/
namespace Schemata.Json

inductive Fault where
  | endInList
  | endInObject
  | endInString
  | endInValue
  | expectedColon
  | expectedListEnd
  | expectedObjectEnd
  | expectedName
  | expectedValue
  | invalidEscape
  | invalidNumber
  | numberOutOfRange
  | controlCharacter
  | keyMustBeString
  | loneSurrogate
  | unpairedEscape
  | trailingComma
  | trailingCharacters
  | tooDeep
deriving DecidableEq

def Fault.message : Fault → String
  | .endInList => "EOF while parsing a list"
  | .endInObject => "EOF while parsing an object"
  | .endInString => "EOF while parsing a string"
  | .endInValue => "EOF while parsing a value"
  | .expectedColon => "expected `:`"
  | .expectedListEnd => "expected `,` or `]`"
  | .expectedObjectEnd => "expected `,` or `\x7d`"
  | .expectedName => "expected ident"
  | .expectedValue => "expected value"
  | .invalidEscape => "invalid escape"
  | .invalidNumber => "invalid number"
  | .numberOutOfRange => "number out of range"
  | .controlCharacter =>
      "control character (\\u0000-\\u001F) found while parsing a string"
  | .keyMustBeString => "key must be a string"
  | .loneSurrogate => "lone leading surrogate in hex escape"
  | .unpairedEscape => "unexpected end of hex escape"
  | .trailingComma => "trailing comma"
  | .trailingCharacters => "trailing characters"
  | .tooDeep => "recursion limit exceeded"

/-- A fault at a line and a column, lines counted from one. -/
structure SyntaxError where
  fault : Fault
  line : Nat
  column : Nat

def SyntaxError.message (error : SyntaxError) : String :=
  error.fault.message ++ " at line " ++ toString error.line ++
    " column " ++ toString error.column

/-- The line and column reached after some bytes of a text. -/
def positionAfter : List Char → Nat → Nat → Nat → Nat × Nat
  | [], _, line, column => (line, column)
  | c :: rest, bytes, line, column =>
      if bytes = 0 then (line, column)
      else if c = '\n' then positionAfter rest (bytes - 1) (line + 1) 0
      else
        positionAfter rest (bytes - c.utf8Size) line (column + min bytes c.utf8Size)

/-- A place in a text: what follows, and the number of bytes before it. -/
structure Cursor where
  rest : List Char
  offset : Nat

/-- A fault and the number of bytes before the place it is reported at. -/
abbrev Failure := Fault × Nat

namespace Cursor

def past (cursor : Cursor) (c : Char) (rest : List Char) : Cursor :=
  ⟨rest, cursor.offset + c.utf8Size⟩

/-- The cursor behind a row of characters of one byte each. -/
def pastAscii (cursor : Cursor) (count : Nat) : Cursor :=
  ⟨cursor.rest.drop count, cursor.offset + count⟩

def isSpace (c : Char) : Bool :=
  c = ' ' || c = '\n' || c = '\t' || c = '\r'

def skipSpace (cursor : Cursor) : Cursor :=
  cursor.pastAscii (cursor.rest.takeWhile isSpace).length

def failHere {α : Type} (cursor : Cursor) (fault : Fault) : Except Failure α :=
  .error (fault, cursor.offset)

/-- Reports a fault behind the first byte of what follows, if anything does. -/
def failAhead {α : Type} (cursor : Cursor) (fault : Fault) : Except Failure α :=
  .error (fault, if cursor.rest.isEmpty then cursor.offset else cursor.offset + 1)

end Cursor

/-- Reads the rest of one of the words `null`, `true` and `false`. -/
def readWord (value : Json) : List Char → Cursor → Except Failure (Json × Cursor)
  | [], cursor => .ok (value, cursor)
  | expected :: more, cursor =>
      match cursor.rest with
      | [] => cursor.failHere .endInValue
      | c :: rest =>
          let next := cursor.past c rest
          if c = expected then readWord value more next
          else (⟨next.rest, cursor.offset + 1⟩ : Cursor).failHere .expectedName

/-- Takes digits into a number as long as it stays below `2 ^ 64`, and gives the digits that
are left when it would not. -/
def absorbDigits (number : Nat) : List Char → Nat × List Char
  | [] => (number, [])
  | c :: rest =>
      let longer := 10 * number + (c.toNat - '0'.toNat)
      if longer < 2 ^ 64 then absorbDigits longer rest else (number, c :: rest)

def scaledNumber (negative : Bool) (digits : Nat) (exponent : Int) (cursor : Cursor) :
    Except Failure (Json × Cursor) :=
  match (Binary64.ofScaled? negative digits exponent).bind Number.ofDouble? with
  | some value => .ok (number value, cursor)
  | none => cursor.failHere .numberOutOfRange

def readExponent (negative : Bool) (digits : Nat) (before : Int) (cursor : Cursor) :
    Except Failure (Json × Cursor) :=
  let (downward, cursor) := match cursor.rest with
    | '+' :: _ => (false, cursor.pastAscii 1)
    | '-' :: _ => (true, cursor.pastAscii 1)
    | _ => (false, cursor)
  match cursor.rest with
  | [] => cursor.failHere .endInValue
  | c :: _ =>
      if !c.isDigit then (⟨[], cursor.offset + 1⟩ : Cursor).failHere .invalidNumber
      else
        let row := cursor.rest.takeWhile Char.isDigit
        let behind := cursor.pastAscii row.length
        let significant := row.dropWhile (· = '0')
        let exponent := Nat.ofDigitChars 10 (significant.take 11) 0
        if 2 ^ 31 ≤ exponent then
          if digits ≠ 0 ∧ !downward then
            let excess :=
              if 2 ^ 31 ≤ Nat.ofDigitChars 10 (significant.take 10) 0 then 10 else 11
            (cursor.pastAscii (row.length - significant.length + excess)).failHere
              .numberOutOfRange
          else scaledNumber negative 0 0 behind
        else
          scaledNumber negative digits
            (if downward then before - exponent else before + exponent) behind

def readFraction (negative : Bool) (digits : Nat) (before : Int) (cursor : Cursor) :
    Except Failure (Json × Cursor) :=
  let row := cursor.rest.takeWhile Char.isDigit
  if row.isEmpty then
    cursor.failAhead (if cursor.rest.isEmpty then .endInValue else .invalidNumber)
  else
    let (digits, left) := absorbDigits digits row
    let exponent := before - (row.length - left.length : Nat)
    let behind := cursor.pastAscii row.length
    match behind.rest with
    | 'e' :: _ | 'E' :: _ => readExponent negative digits exponent (behind.pastAscii 1)
    | _ => scaledNumber negative digits exponent behind

def readNumber (negative : Bool) (cursor : Cursor) : Except Failure (Json × Cursor) :=
  match cursor.rest with
  | [] => cursor.failHere .endInValue
  | c :: next =>
      if !c.isDigit then (⟨[], cursor.offset + 1⟩ : Cursor).failHere .invalidNumber
      else if c = '0' ∧ (next.head?.any Char.isDigit) then
        (cursor.pastAscii 1).failAhead .invalidNumber
      else
        let row := cursor.rest.takeWhile Char.isDigit
        let (digits, left) := absorbDigits 0 row
        let behind := cursor.pastAscii row.length
        match behind.rest with
        | '.' :: _ => readFraction negative digits left.length (behind.pastAscii 1)
        | 'e' :: _ | 'E' :: _ =>
            readExponent negative digits left.length (behind.pastAscii 1)
        | _ =>
            let whole : Int := if negative then -(digits : Int) else digits
            match if left.isEmpty ∧ ¬(negative ∧ digits = 0) then Number.ofInt? whole
                else none with
            | some value => .ok (number value, behind)
            | none => scaledNumber negative digits left.length behind

def readHex (cursor : Cursor) : Except Failure (Nat × Cursor) :=
  match cursor.rest with
  | a :: b :: c :: d :: rest =>
      match Text.hexValue? a, Text.hexValue? b, Text.hexValue? c, Text.hexValue? d with
      | some a, some b, some c, some d =>
          .ok (((a * 16 + b) * 16 + c) * 16 + d, ⟨rest, cursor.offset + 4⟩)
      | _, _, _, _ => .error (.invalidEscape, cursor.offset + 4)
  | short =>
      let bytes := Text.byteCount short
      if 4 ≤ bytes then .error (.invalidEscape, cursor.offset + 4)
      else .error (.endInString, cursor.offset + bytes)

/-- Reads the character of a `\u` escape; one outside of the basic plane takes two. -/
def readUnicode (cursor : Cursor) : Except Failure (Char × Cursor) := do
  let (first, cursor) ← readHex cursor
  if 0xdc00 ≤ first ∧ first ≤ 0xdfff then cursor.failHere .loneSurrogate
  else if first < 0xd800 ∨ 0xdbff < first then .ok (Char.ofNat first, cursor)
  else
    match cursor.rest with
    | [] => cursor.failHere .endInString
    | '\\' :: [] => (cursor.pastAscii 1).failHere .endInString
    | '\\' :: 'u' :: _ =>
        let (second, cursor) ← readHex (cursor.pastAscii 2)
        if second < 0xdc00 ∨ 0xdfff < second then cursor.failHere .loneSurrogate
        else
          .ok (Char.ofNat ((first - 0xd800) * 0x400 + (second - 0xdc00) + 0x10000), cursor)
    | '\\' :: _ => (⟨[], cursor.offset + 2⟩ : Cursor).failHere .unpairedEscape
    | _ => (⟨[], cursor.offset + 1⟩ : Cursor).failHere .unpairedEscape

def readEscape (cursor : Cursor) : Except Failure (Char × Cursor) :=
  match cursor.rest with
  | [] => cursor.failHere .endInString
  | c :: _ =>
      let behind := cursor.pastAscii 1
      match c with
      | '"' => .ok ('"', behind)
      | '\\' => .ok ('\\', behind)
      | '/' => .ok ('/', behind)
      | 'b' => .ok (Char.ofNat 8, behind)
      | 'f' => .ok (Char.ofNat 12, behind)
      | 'n' => .ok ('\n', behind)
      | 'r' => .ok ('\r', behind)
      | 't' => .ok ('\t', behind)
      | 'u' => readUnicode behind
      | _ => behind.failHere .invalidEscape

/-- Reads a string behind its opening quote; `taken` holds its characters so far, the last one
first. Each round but the last one takes at least one character, so one round more than there
are characters is enough. -/
def readString (taken : List Char) : Nat → Cursor → Except Failure (String × Cursor)
  | 0, cursor => cursor.failHere .endInString
  | rounds + 1, cursor =>
      match cursor.rest with
      | [] => cursor.failHere .endInString
      | '"' :: _ => .ok (String.ofList taken.reverse, cursor.pastAscii 1)
      | '\\' :: _ => do
          let (c, behind) ← readEscape (cursor.pastAscii 1)
          readString (c :: taken) rounds behind
      | c :: rest =>
          if c.toNat < 32 then (cursor.pastAscii 1).failHere .controlCharacter
          else readString (c :: taken) rounds (cursor.past c rest)

abbrev ValueReader := Cursor → Except Failure (Json × Cursor)

/-- Reads the rest of an array with a reader of its items; `taken` holds the items so far, the
last one first. Each round but the last one takes at least one character, so one round more
than there are characters is enough. -/
def readItems (readItem : ValueReader) (taken : List Json) : Nat → ValueReader
  | 0, cursor => cursor.failHere .endInList
  | rounds + 1, cursor =>
      let cursor := cursor.skipSpace
      let item (start : Cursor) : Except Failure (Json × Cursor) := do
        let (value, behind) ← readItem start
        readItems readItem (value :: taken) rounds behind
      match cursor.rest with
      | [] => cursor.failAhead .endInList
      | ']' :: _ => .ok (array taken.reverse, cursor.pastAscii 1)
      | c :: _ =>
          if taken.isEmpty then item cursor
          else if c = ',' then
            let start := (cursor.pastAscii 1).skipSpace
            match start.rest with
            | [] => start.failAhead .endInValue
            | ']' :: _ => start.failAhead .trailingComma
            | _ => item start
          else cursor.failAhead .expectedListEnd

def readName (rounds : Nat) (cursor : Cursor) : Except Failure (String × Cursor) :=
  match cursor.rest with
  | [] => cursor.failAhead .endInValue
  | '"' :: _ => do
      let (name, behind) ← readString [] rounds (cursor.pastAscii 1)
      let colon := behind.skipSpace
      match colon.rest with
      | [] => colon.failAhead .endInObject
      | ':' :: _ => .ok (name, colon.pastAscii 1)
      | _ => colon.failAhead .expectedColon
  | '\x7d' :: _ => cursor.failAhead .trailingComma
  | _ => cursor.failAhead .keyMustBeString

/-- Reads the rest of an object with a reader of its values; `taken` holds the members so far.
One round more than there are characters is enough. -/
def readMembers (readItem : ValueReader) (taken : Members) : Nat → ValueReader
  | 0, cursor => cursor.failHere .endInObject
  | rounds + 1, cursor =>
      let cursor := cursor.skipSpace
      let member (start : Cursor) : Except Failure (Json × Cursor) := do
        let (name, behind) ← readName (rounds + 1) start
        let (value, behind) ← readItem behind
        readMembers readItem (taken.put name value) rounds behind
      match cursor.rest with
      | [] => cursor.failAhead .endInObject
      | '\x7d' :: _ => .ok (object taken, cursor.pastAscii 1)
      | c :: _ =>
          if taken.isEmpty then member cursor
          else if c = ',' then member (cursor.pastAscii 1).skipSpace
          else cursor.failAhead .expectedObjectEnd

/-- Reads a value in which arrays and objects are nested up to some depth. There are `rounds`
for each string, array and object. -/
def readValue (rounds depth : Nat) (cursor : Cursor) : Except Failure (Json × Cursor) :=
  let cursor := cursor.skipSpace
  match cursor.rest with
  | [] => cursor.failAhead .endInValue
  | 'n' :: _ => readWord null ['u', 'l', 'l'] (cursor.pastAscii 1)
  | 't' :: _ => readWord (bool true) ['r', 'u', 'e'] (cursor.pastAscii 1)
  | 'f' :: _ => readWord (bool false) ['a', 'l', 's', 'e'] (cursor.pastAscii 1)
  | '-' :: _ => readNumber true (cursor.pastAscii 1)
  | '"' :: _ => do
      let (text, behind) ← readString [] rounds (cursor.pastAscii 1)
      .ok (string text, behind)
  | '[' :: _ =>
      match depth with
      | 0 => cursor.failAhead .tooDeep
      | depth + 1 => readItems (readValue rounds depth) [] rounds (cursor.pastAscii 1)
  | '\x7b' :: _ =>
      match depth with
      | 0 => cursor.failAhead .tooDeep
      | depth + 1 => readMembers (readValue rounds depth) [] rounds (cursor.pastAscii 1)
  | c :: _ =>
      if c.isDigit then readNumber false cursor else cursor.failAhead .expectedValue

/-- How deep arrays and objects may be nested. -/
def depthLimit : Nat := 127

/-- Reads a whole text: one value with nothing but blanks around it. -/
def read (text : String) : Except SyntaxError Json :=
  let chars := text.toList
  let outcome : Except Failure Json := do
    let (value, behind) ← readValue (chars.length + 1) depthLimit ⟨chars, 0⟩
    let behind := behind.skipSpace
    if behind.rest.isEmpty then .ok value else behind.failAhead .trailingCharacters
  outcome.mapError fun (fault, bytes) =>
    let (line, column) := positionAfter chars bytes 1 0
    ⟨fault, line, column⟩

end Schemata.Json

import Schemata.Text.Utf8

/-!
# Base64

Bytes as text in the standard alphabet, padded to groups of four symbols. Reading accepts
padded text only, and of several texts for the same bytes only the one that writing produces.
-/
namespace Schemata.Base64

def alphabet : List Char :=
  "ABCDEFGHIJKLMNOPQRSTUVWXYZabcdefghijklmnopqrstuvwxyz0123456789+/".toList

def symbol (value : Nat) : Char :=
  alphabet.getD value 'A'

def paddingByte : UInt8 := '='.toNat.toUInt8

/-- The six bits that a byte stands for as a symbol. -/
def value? (byte : UInt8) : Option Nat :=
  alphabet.findIdx? fun c => c.toNat.toUInt8 = byte

/-- Writes each three bytes as four symbols, and a rest of one or two bytes with padding. -/
def encodeBytes : List UInt8 → List Char
  | a :: b :: c :: rest =>
      symbol (a.toNat / 4) :: symbol (a.toNat % 4 * 16 + b.toNat / 16) ::
        symbol (b.toNat % 16 * 4 + c.toNat / 64) :: symbol (c.toNat % 64) ::
        encodeBytes rest
  | [a, b] =>
      [symbol (a.toNat / 4), symbol (a.toNat % 4 * 16 + b.toNat / 16),
        symbol (b.toNat % 16 * 4), '=']
  | [a] => [symbol (a.toNat / 4), symbol (a.toNat % 4 * 16), '=', '=']
  | [] => []

def encode (bytes : List UInt8) : String :=
  String.ofList (encodeBytes bytes)

/-- Why a text is refused; offsets count bytes. -/
inductive Fault where
  | symbol (byte : UInt8) (offset : Nat)
  | lastSymbol (byte : UInt8) (offset : Nat)
  | length (bytes : Nat)
  | padding
deriving DecidableEq

def Fault.message : Fault → String
  | .symbol byte offset =>
      "Invalid symbol " ++ toString byte.toNat ++ ", offset " ++ toString offset ++ "."
  | .lastSymbol byte offset =>
      "Invalid last symbol " ++ toString byte.toNat ++ ", offset " ++ toString offset ++ "."
  | .length bytes => "Invalid input length: " ++ toString bytes
  | .padding => "Invalid padding"

def readSymbol (offset : Nat) (byte : UInt8) : Except Fault Nat :=
  match value? byte with
  | some value => .ok value
  | none => .error (.symbol byte offset)

def joinValues (a b c d : Nat) : List UInt8 :=
  [(a * 4 + b / 16).toUInt8, (b % 16 * 16 + c / 4).toUInt8, (c % 4 * 64 + d).toUInt8]

/-- Reads the symbols of the last group up to its padding, which may not begin before its
third place and is followed by padding only. The result is the symbols' values and the number
of padding bytes. -/
def readLastSymbols (offset index : Nat) : List UInt8 → Except Fault (List Nat × Nat)
  | [] => .ok ([], 0)
  | byte :: rest =>
      if byte = paddingByte then
        if index < 2 ∨ rest.any (· ≠ paddingByte) then
          .error (.symbol byte (offset + index))
        else .ok ([], rest.length + 1)
      else do
        let value ← readSymbol (offset + index) byte
        let (values, padding) ← readLastSymbols offset (index + 1) rest
        return (value :: values, padding)

/-- Reads the last group. The bits of its last symbol that belong to no byte must be zero. -/
def readLastGroup (offset : Nat) (group : List UInt8) : Except Fault (List UInt8) := do
  let (values, padding) ← readLastSymbols offset 0 group
  match values with
  | [a, b, c, d] => .ok (joinValues a b c d)
  | [a, b, c] =>
      if padding ≠ 1 then .error .padding
      else if c % 4 ≠ 0 then .error (.lastSymbol (group.getD 2 0) (offset + 2))
      else .ok ((joinValues a b c 0).take 2)
  | [a, b] =>
      if padding ≠ 2 then .error .padding
      else if b % 16 ≠ 0 then .error (.lastSymbol (group.getD 1 0) (offset + 1))
      else .ok ((joinValues a b 0 0).take 1)
  | [_] => .error (.length (offset + 1))
  | _ => if group.isEmpty then .ok [] else .error (.length offset)

/-- Reads groups of four symbols; a group is the last one if nothing follows it. -/
def readGroups (offset : Nat) : List UInt8 → Except Fault (List UInt8)
  | a :: b :: c :: d :: e :: rest => do
      let first ← readSymbol offset a
      let second ← readSymbol (offset + 1) b
      let third ← readSymbol (offset + 2) c
      let fourth ← readSymbol (offset + 3) d
      let bytes ← readGroups (offset + 4) (e :: rest)
      return joinValues first second third fourth ++ bytes
  | group => readLastGroup offset group

/-- A single byte behind the groups of four that is no symbol is reported before all else. -/
def checkLone (bytes : List UInt8) : Except Fault Unit :=
  match bytes.getLast? with
  | some byte =>
      if bytes.length % 4 = 1 ∧ byte ≠ paddingByte ∧ (value? byte).isNone then
        .error (.symbol byte (bytes.length - 1))
      else .ok ()
  | none => .ok ()

def decode (text : String) : Except Fault (List UInt8) := do
  let bytes := Text.utf8 text.toList
  checkLone bytes
  readGroups 0 bytes

end Schemata.Base64

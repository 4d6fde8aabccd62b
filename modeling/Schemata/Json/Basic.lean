import Schemata.Binary64.Basic

/-!
# JSON values

Documents, declarations and rules are JSON values. An object keeps its members in the order
they were written, so two objects with the same members in another order are different values.
-/
namespace Schemata

/-- A number of a document: an integer of the 64-bit signed or unsigned range, or a finite
double. `1` and `1.0` are different numbers. -/
inductive Number where
  | int (value : Int) (range : -2 ^ 63 ≤ value ∧ value < 2 ^ 64)
  | double (value : Binary64) (finite : value.isFinite = true)
deriving DecidableEq

inductive Json where
  | null
  | bool (value : Bool)
  | number (value : Number)
  | string (value : String)
  | array (items : List Json)
  | object (members : List (String × Json))

instance : Inhabited Json := ⟨.null⟩

abbrev Members := List (String × Json)

namespace Number

def ofInt? (value : Int) : Option Number :=
  if range : -2 ^ 63 ≤ value ∧ value < 2 ^ 64 then some (.int value range) else none

def ofDouble? (value : Binary64) : Option Number :=
  if finite : value.isFinite = true then some (.double value finite) else none

def ofInt64 (value : Int64) : Number :=
  .int value.toInt
    ⟨value.minValue_le_toInt, Int.lt_trans value.toInt_lt (by decide)⟩

def ofUInt64 (value : UInt64) : Number :=
  .int value.toNat ⟨by omega, by exact_mod_cast value.toNat_lt⟩

/-- The number as a signed 64-bit integer; doubles are none, whole or not. -/
def toInt64? : Number → Option Int64
  | .int value _ => if value < 2 ^ 63 then some (Int64.ofInt value) else none
  | .double _ _ => none

/-- The number as an unsigned 64-bit integer; doubles are none, whole or not. -/
def toUInt64? : Number → Option UInt64
  | .int value _ => if 0 ≤ value then some (UInt64.ofNat value.toNat) else none
  | .double _ _ => none

def toDouble : Number → Binary64
  | .int value _ => Binary64.ofInt value
  | .double value _ => value

end Number

namespace Members

def find? (members : Members) (name : String) : Option Json :=
  members.lookup name

/-- Gives a name a value: in place if the name is there, at the end otherwise. -/
def put (members : Members) (name : String) (value : Json) : Members :=
  match members with
  | [] => [(name, value)]
  | member :: rest =>
      if member.1 = name then (name, value) :: rest else member :: put rest name value

end Members

namespace Json

def bool? : Json → Option Bool
  | bool value => some value
  | _ => none

def number? : Json → Option Number
  | number value => some value
  | _ => none

def string? : Json → Option String
  | string value => some value
  | _ => none

def array? : Json → Option (List Json)
  | array items => some items
  | _ => none

def object? : Json → Option Members
  | object members => some members
  | _ => none

end Json
end Schemata

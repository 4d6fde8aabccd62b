import Schemata.Projection.Basic

/-!
# Reading projections

A value is read as a list of projections, else as a range rule, else as a field rule. Rules are
objects without unknown members, or arrays that give the members in order.
-/
namespace Schemata.Projection

/-- A value inside a rule, and the projection it reads as. -/
structure Reading where
  value : Json
  projection : Option Projection

abbrev RuleMembers := List (String × Reading)

def pathOf? (members : RuleMembers) : Option Path := do
  (Path.ofJson (← members.lookup "field").value).toOption

/-- A flag that may be left out, but not be null. -/
def flagOf? (members : RuleMembers) (name : String) (default : Bool) : Option Bool :=
  match members.lookup name with
  | none => some default
  | some reading => reading.value.bool?

/-- A bound of a range: an integer that is not negative. -/
def boundOf? (value : Json) : Option UInt64 :=
  value.number?.bind Number.toUInt64?

def boundsOf? (members : RuleMembers) : Option (UInt64 × UInt64) := do
  match ← (← members.lookup "range").value.array? with
  | [first, last] => return (← boundOf? first, ← boundOf? last)
  | _ => none

/-- The projection inside a range rule, which may be left out or be null. -/
def projectOf? (members : RuleMembers) : Option (Option Projection) :=
  match members.lookup "project" with
  | none => some none
  | some ⟨.null, _⟩ => some none
  | some reading => reading.projection.map some

def fieldMembers : List String :=
  ["field", "include", "recursive"]

def rangeMembers : List String :=
  ["field", "include", "range", "project"]

def fieldRule? (members : RuleMembers) : Option Projection := do
  guard (members.all fun member => fieldMembers.contains member.1)
  return .field (← pathOf? members) (← flagOf? members "include" true)
    (← flagOf? members "recursive" false)

def rangeRule? (members : RuleMembers) : Option Projection := do
  guard (members.all fun member => rangeMembers.contains member.1)
  let (first, last) ← boundsOf? members
  return .range (← pathOf? members) (← flagOf? members "include" true) first last
    (← projectOf? members)

/-- The items as members in order, if there are not too many. -/
def positional? (names : List String) (items : List Reading) : Option RuleMembers :=
  if items.length ≤ names.length then some (names.zip items) else none

/-- A list of projections, or a rule whose members are given in order. -/
def ofItems? (items : List Reading) : Option Projection :=
  ((items.mapM Reading.projection).map .list)
    <|> ((positional? rangeMembers items).bind rangeRule?)
    <|> ((positional? fieldMembers items).bind fieldRule?)

def ofMembers? (members : RuleMembers) : Option Projection :=
  rangeRule? members <|> fieldRule? members

mutual

def ofJson? : Json → Option Projection
  | .array items => ofItems? (readItems items)
  | .object members => ofMembers? (readMembers members)
  | _ => none

def readItems : List Json → List Reading
  | [] => []
  | item :: rest => ⟨item, ofJson? item⟩ :: readItems rest

def readMembers : List (String × Json) → RuleMembers
  | [] => []
  | (name, value) :: rest => (name, ⟨value, ofJson? value⟩) :: readMembers rest

end

/-- Reads a projection. Values of any other shape are refused in one way. -/
def ofJson (value : Json) : Except ShapeFault Projection :=
  (ofJson? value).elim (.error (.noAlternative "Projection")) .ok

end Schemata.Projection

import Schemata.Json.Shape

/-!
# Lifecycle of a schema

A schema is proposed, then validated, then published, then retired, and moves no other way.
-/
namespace Schemata

inductive SchemaStatus where
  | proposed
  | validated
  | published
  | retired
deriving DecidableEq

structure IllegalTransition where
  start : SchemaStatus
  goal : SchemaStatus
deriving DecidableEq

namespace SchemaStatus

def all : List SchemaStatus :=
  [proposed, validated, published, retired]

def name : SchemaStatus → String
  | proposed => "proposed"
  | validated => "validated"
  | published => "published"
  | retired => "retired"

def ofName? (name : String) : Option SchemaStatus :=
  all.find? fun status => status.name = name

def ofJson (value : Json) : Except ShapeFault SchemaStatus := do
  let name ← value.asVariant
  (ofName? name).elim (.error (.unknownVariant name (all.map SchemaStatus.name))) .ok

def next? : SchemaStatus → Option SchemaStatus
  | proposed => some validated
  | validated => some published
  | published => some retired
  | retired => none

def canMoveTo (status goal : SchemaStatus) : Bool :=
  status.next? = some goal

def moveTo (status goal : SchemaStatus) : Except IllegalTransition SchemaStatus :=
  if status.canMoveTo goal then .ok goal else .error ⟨status, goal⟩

end SchemaStatus

def IllegalTransition.message (move : IllegalTransition) : String :=
  "illegal status transition: " ++ move.start.name ++ " -> " ++ move.goal.name

end Schemata

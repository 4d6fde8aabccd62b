import Schemata.Proofs.Registry.Steps

/-!
# Runs of a registry

A run is any sequence of operations on a registry. Submissions that the registry has validated
are kept beside it, and each of them may be published at any later time, whatever has happened
in between.
-/
namespace Schemata.Registry

open Attempt

/-- An operation on a registry. A publication names, by its place, one of the submissions that
the registry has validated so far. -/
inductive Action where
  | validate (submitted : EntityMetadata)
  | publish (slot : Nat)
  | register (submitted : EntityMetadata)
  | setDefault (name version : String)
  | retire (name version : String)
  | remove (name version : String)

/-- A registry, and the submissions that it has validated so far. -/
structure Session where
  registry : Registry
  validated : List ValidatedMetadata

namespace Session

/-- A registry without entities that has validated nothing yet. -/
def start (config : Config) (judge : DataStoreJudge) : Session :=
  ⟨.empty config judge, []⟩

def attempt {α : Type} (session : Session) (attempted : Attempt Registry MetadataError α) :
    Session :=
  { session with registry := (outcome attempted session.registry).2 }

/-- The session after an operation, whether it succeeds or fails. -/
def step (session : Session) : Action → Session
  | .validate submitted =>
      match session.registry.validate submitted with
      | .ok validated => { session with validated := session.validated ++ [validated] }
      | .error _ => session
  | .publish slot =>
      match session.validated[slot]? with
      | some validated => session.attempt (Registry.publish validated)
      | none => session
  | .register submitted => session.attempt (Registry.register submitted)
  | .setDefault name version => session.attempt (Registry.setDefault name version)
  | .retire name version => session.attempt (Registry.retire name version)
  | .remove name version => session.attempt (Registry.remove name version)

def run (session : Session) (actions : List Action) : Session :=
  actions.foldl step session

@[simp]
theorem run_nil (session : Session) :
    session.run [] = session :=
  rfl

@[simp]
theorem run_concat
    (session : Session) (actions : List Action) (action : Action) :
    session.run (actions ++ [action]) = (session.run actions).step action := by
  simp [run]

@[simp]
theorem attempt_registry
    {α : Type} (session : Session) (attempted : Attempt Registry MetadataError α) :
    (session.attempt attempted).registry = (outcome attempted session.registry).2 :=
  rfl

@[simp]
theorem step_validate_registry (session : Session) (submitted : EntityMetadata) :
    (session.step (.validate submitted)).registry = session.registry := by
  simp only [step]
  split <;> rfl

end Session

def orderVersion (number : String) (defaultVersion : Option String) : EntityMetadata where
  info := { EntityInfo.ofName "Order" (.ofBackend "mongo") with defaultVersion := defaultVersion }
  schema :=
    .propose "Order" (.ofNumber number)
      (FieldTree.empty.attach FieldTree.root "id" (.leaf ⟨0, 0, .scalar .uid⟩ [])) ∅

end Schemata.Registry

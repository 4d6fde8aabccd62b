import Schemata.Proofs.Registry.History

/-!
# Failed operations

An operation on a registry does all of its work or none. One that fails leaves the registry as it
was, with everything in it, and so a run comes to what its successful operations come to.
-/
namespace Schemata.Registry

open Attempt

/-- A version that was not registered is, with its published schema. -/
def Publishes (submitted : EntityMetadata) (before : Registry) (schema : EntitySchema)
    (later : Registry) : Prop :=
  before.schema? submitted.info.name submitted.version = none ∧
    schema = { submitted.schema with status := .published } ∧
    later.schema? submitted.info.name submitted.version = some schema

/-- An entity has a version as its default. -/
def Chooses (name version : String) (before : Registry) (_ : Unit) (later : Registry) : Prop :=
  ∃ info, before.info name = .ok info ∧ later.info name = .ok (info.withDefault version)

def Retires (name version : String) (before : Registry) (retired : EntitySchema)
    (later : Registry) : Prop :=
  ∃ schema,
    before.schema? name version = some schema ∧ schema.status = .published ∧
      retired = { schema with status := .retired } ∧
      later.schema? name version = some retired

/-- A version that was registered is not any more. -/
def Removes (name version : String) (before : Registry) (schema : EntitySchema)
    (later : Registry) : Prop :=
  before.schema? name version = some schema ∧ later.schema? name version = none

private theorem allOrNothing_publish (validated : ValidatedMetadata) :
    AllOrNothing (publish validated) (Publishes validated.metadata) := by
  intro registry
  rcases publish_cases registry validated with
    ⟨_, ended⟩ | ⟨_, _, _, ended⟩ | ⟨schema, fresh, published, ended⟩
  · exact Or.inl ⟨_, ended⟩
  · exact Or.inl ⟨_, ended⟩
  · have moved := (EntitySchema.moveTo_eq_ok_iff.1 published).2
    have there := schema?_publishedRecord registry published
    exact Or.inr ⟨schema, _, ended, schema?_of_not_hasVersion fresh, moved, there⟩

private theorem allOrNothing_register (submitted : EntityMetadata) :
    AllOrNothing (register submitted) (Publishes submitted) := by
  intro registry
  rw [outcome_register]
  cases passed : registry.validate submitted with
  | error error => exact Or.inl ⟨error, rfl⟩
  | ok validated =>
      have same := (acceptable_of_validate passed).2
      rcases allOrNothing_publish validated registry with failed | ⟨schema, later, ended, effect⟩
      · exact Or.inl failed
      · rw [same] at effect
        exact Or.inr ⟨schema, later, ended, effect⟩

private theorem allOrNothing_setDefault (name version : String) :
    AllOrNothing (setDefault name version) (Chooses name version) := by
  intro registry
  rcases setDefault_cases registry name version with
    ⟨_, ended⟩ | ⟨_, _, _, ended⟩ | ⟨record, found, live, ended⟩
  · exact Or.inl ⟨_, ended⟩
  · exact Or.inl ⟨_, ended⟩
  · refine Or.inr ⟨_, _, ended, record.info, ?_, ?_⟩
    · rw [info, record_eq, found]
      rfl
    · rw [info, record_eq, find?_putRecord, if_pos rfl]
      rfl

private theorem allOrNothing_retire (name version : String) :
    AllOrNothing (retire name version) (Retires name version) := by
  intro registry
  rcases retire_cases registry name version with
    ⟨_, ended⟩ | ⟨_, _, _, ended⟩ | ⟨_, _, _, _, _, _, ended⟩ |
      ⟨record, schema, retired, found, known, moved, ended⟩
  · exact Or.inl ⟨_, ended⟩
  · exact Or.inl ⟨_, ended⟩
  · exact Or.inl ⟨_, ended⟩
  · obtain ⟨allowed, same⟩ := EntitySchema.moveTo_eq_ok_iff.1 moved
    have published := canMoveTo_retired_iff.1 allowed
    refine Or.inr ⟨retired, _, ended, schema, ?_, published, same, ?_⟩
    · rw [schema?_of_record found, known]
    · rw [schema?_putRecord, if_pos rfl, find?_retire, if_pos rfl]

private theorem allOrNothing_remove (name version : String) :
    AllOrNothing (remove name version) (Removes name version) := by
  intro registry
  rcases remove_cases registry name version with
    ⟨_, ended⟩ | ⟨_, _, _, ended⟩ | ⟨record, schema, found, known, ended⟩
  · exact Or.inl ⟨_, ended⟩
  · exact Or.inl ⟨_, ended⟩
  · refine Or.inr ⟨schema, _, ended, ?_, ?_⟩
    · rw [schema?_of_record found, known]
    · rw [schema?_putOrDrop, if_pos rfl, find?_removeVersion, if_pos rfl]

namespace Session

/-- The operation succeeds. Publishing what has not been validated fails. -/
def succeeds (session : Session) : Action → Bool
  | .validate submitted => (session.registry.validate submitted).isOk
  | .publish slot =>
      session.validated[slot]?.any fun validated =>
        (outcome (Registry.publish validated) session.registry).1.isOk
  | .register submitted => (outcome (Registry.register submitted) session.registry).1.isOk
  | .setDefault name version =>
      (outcome (Registry.setDefault name version) session.registry).1.isOk
  | .retire name version => (outcome (Registry.retire name version) session.registry).1.isOk
  | .remove name version => (outcome (Registry.remove name version) session.registry).1.isOk

def successful (session : Session) : List Action → List Action
  | [] => []
  | action :: rest =>
      if session.succeeds action then action :: (session.step action).successful rest
      else (session.step action).successful rest

private theorem attempt_of_failed
    {α : Type} {attempted : Attempt Registry MetadataError α}
    {effect : Registry → α → Registry → Prop} (whole : AllOrNothing attempted effect)
    {session : Session} (failed : (outcome attempted session.registry).1.isOk = false) :
    session.attempt attempted = session := by
  unfold attempt
  rw [whole.state_eq failed]

private theorem step_of_failed
    {session : Session} {action : Action} (failed : session.succeeds action = false) :
    session.step action = session := by
  cases action with
  | validate submitted =>
      rw [succeeds] at failed
      rw [step]
      cases passed : session.registry.validate submitted with
      | error error => rfl
      | ok validated =>
          rw [passed] at failed
          cases failed
  | publish slot =>
      rw [succeeds] at failed
      rw [step]
      cases held : session.validated[slot]? with
      | none => rfl
      | some validated =>
          rw [held, Option.any_some] at failed
          exact attempt_of_failed (allOrNothing_publish validated) failed
  | register submitted => exact attempt_of_failed (allOrNothing_register submitted) failed
  | setDefault name version =>
      exact attempt_of_failed (allOrNothing_setDefault name version) failed
  | retire name version => exact attempt_of_failed (allOrNothing_retire name version) failed
  | remove name version => exact attempt_of_failed (allOrNothing_remove name version) failed

/-- A run comes to what its successful operations come to. -/
theorem run_successful (session : Session) (actions : List Action) :
    session.run (session.successful actions) = session.run actions := by
  induction actions generalizing session with
  | nil => rfl
  | cons action rest hypothesis =>
      have after := hypothesis (session.step action)
      rw [successful]
      by_cases succeeds : session.succeeds action
      · rw [if_pos succeeds]
        exact after
      · have still := step_of_failed (Bool.eq_false_iff.2 succeeds)
        rw [if_neg succeeds]
        rw [still] at after ⊢
        rw [after]
        show _ = (session.step action).run rest
        rw [still]

end Session

/-- Each operation fails and leaves the registry as it was, or succeeds and has its effect; and the
failed operations of a run may be left out of it. -/
theorem operations_all_or_nothing :
    (∀ validated, AllOrNothing (publish validated) (Publishes validated.metadata)) ∧
      (∀ submitted, AllOrNothing (register submitted) (Publishes submitted)) ∧
      (∀ name version,
        AllOrNothing (setDefault name version) (Chooses name version) ∧
          AllOrNothing (retire name version) (Retires name version) ∧
          AllOrNothing (remove name version) (Removes name version)) ∧
      ∀ (session : Session) (actions : List Action),
        session.run (session.successful actions) = session.run actions := by
  refine ⟨allOrNothing_publish, allOrNothing_register, fun name version => ?_,
    Session.run_successful⟩
  exact ⟨allOrNothing_setDefault name version, allOrNothing_retire name version,
    allOrNothing_remove name version⟩

end Schemata.Registry

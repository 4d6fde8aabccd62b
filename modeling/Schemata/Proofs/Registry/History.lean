import Schemata.Proofs.Registry.Run

/-!
# The history of a registry

An operation that changes a registry is an event, and the events along a run are its history. What
becomes of a registry depends on the event alone, so that whatever a registry owes to its history
is shown event by event.
-/
namespace Schemata.Registry

open Attempt

/-- What an operation has done. -/
inductive Event where
  | published (submitted : EntityMetadata) (schema : EntitySchema)
  | chosen (name version : String)
  | retired (name version : String)
  | removed (name version : String)

namespace Event

def retires (name version : String) : Event → Bool
  | .retired other number => other = name && number = version
  | _ => false

def removes (name version : String) : Event → Bool
  | .removed other number => other = name && number = version
  | _ => false

/-- What was submitted if the event is the publication of a version of an entity. -/
def submission? (name : String) : Event → Option EntityMetadata
  | .published submitted _ => if submitted.info.name = name then some submitted else none
  | _ => none

end Event

def lastSubmission? (history : List Event) (name : String) : Option EntityMetadata :=
  (history.filterMap (Event.submission? name)).getLast?

/-- A publication, with the schema it answers, or the change that an operation with no answer of
interest makes. -/
def Session.event? (session : Session) : Action → Option Event
  | .validate _ => none
  | .publish slot => do
      let validated ← session.validated[slot]?
      let schema ← (outcome (Registry.publish validated) session.registry).1.toOption
      return .published validated.metadata schema
  | .register submitted =>
      (outcome (Registry.register submitted) session.registry).1.toOption.map
        (.published submitted)
  | .setDefault name version =>
      (outcome (Registry.setDefault name version) session.registry).1.toOption.map fun _ =>
        .chosen name version
  | .retire name version =>
      (outcome (Registry.retire name version) session.registry).1.toOption.map fun _ =>
        .retired name version
  | .remove name version =>
      (outcome (Registry.remove name version) session.registry).1.toOption.map fun _ =>
        .removed name version

def Session.events (session : Session) : List Action → List Event
  | [] => []
  | action :: rest => (session.event? action).toList ++ (session.step action).events rest

/-- What an event makes of a registry, with all that is made sure of before it happens. Without an
event nothing changes. -/
inductive Transition (registry : Registry) : Option Event → Registry → Prop
  | still : Transition registry none registry
  | publish (submitted : EntityMetadata)
      (accepted : ∃ catalog, Metadata.Acceptable catalog registry.judge submitted)
      (fresh : registry.hasVersion submitted.info.name submitted.version = false)
      (schema : EntitySchema)
      (published : schema = { submitted.schema with status := .published }) :
      Transition registry (some (.published submitted schema))
        (registry.putRecord submitted.info.name (registry.publishedRecord submitted schema))
  | choose (name version : String) (record : EntityRecord)
      (found : registry.entities.find? name = some record)
      (live : record.isLive version = true) :
      Transition registry (some (.chosen name version))
        (registry.putRecord name { record with info := record.info.withDefault version })
  | retire (name version : String) (record : EntityRecord) (schema : EntitySchema)
      (found : registry.entities.find? name = some record)
      (known : record.versions.find? version = some schema)
      (published : schema.status = .published) :
      Transition registry (some (.retired name version))
        (registry.putRecord name (record.retire version { schema with status := .retired }))
  | remove (name version : String) (record : EntityRecord) (schema : EntitySchema)
      (found : registry.entities.find? name = some record)
      (known : record.versions.find? version = some schema) :
      Transition registry (some (.removed name version))
        (registry.putOrDrop name (record.removeVersion version))

theorem Transition.judge_eq
    {registry later : Registry} {event : Option Event}
    (transition : Transition registry event later) :
    later.judge = registry.judge := by
  cases transition with
  | remove name version record schema found known => exact judge_putOrDrop registry name _
  | _ => rfl

theorem canMoveTo_retired_iff {status : SchemaStatus} :
    status.canMoveTo .retired = true ↔ status = .published := by
  cases status <;> decide

/-- None of the conditions on metadata sees the status of the schema. -/
theorem acceptable_status
    {catalog : VersionCatalog} {judge : DataStoreJudge} {metadata : EntityMetadata}
    (acceptable : Metadata.Acceptable catalog judge metadata) (status : SchemaStatus) :
    Metadata.Acceptable catalog judge
      { metadata with schema := { metadata.schema with status := status } } where
  named := acceptable.named
  namesAgree := acceptable.namesAgree
  numbered := acceptable.numbered
  hasFields := acceptable.hasFields
  stored := acceptable.stored
  defaultExists := acceptable.defaultExists

private theorem transition_publish
    {registry : Registry} {validated : ValidatedMetadata}
    (accepted : ∃ catalog, Metadata.Acceptable catalog registry.judge validated.metadata) :
    Transition registry
      ((outcome (publish validated) registry).1.toOption.map (.published validated.metadata))
      (outcome (publish validated) registry).2 := by
  rcases publish_cases registry validated with
    ⟨_, ended⟩ | ⟨_, _, _, ended⟩ | ⟨schema, fresh, published, ended⟩
  · rw [ended]
    exact .still
  · rw [ended]
    exact .still
  · rw [ended]
    have moved := (EntitySchema.moveTo_eq_ok_iff.1 published).2
    exact .publish validated.metadata accepted fresh schema moved

theorem transition_register (registry : Registry) (submitted : EntityMetadata) :
    Transition registry
      ((outcome (register submitted) registry).1.toOption.map (.published submitted))
      (outcome (register submitted) registry).2 := by
  rw [outcome_register]
  cases passed : registry.validate submitted with
  | error error => exact .still
  | ok validated =>
      obtain ⟨acceptable, same⟩ := acceptable_of_validate passed
      rcases publish_cases registry validated with
        ⟨_, ended⟩ | ⟨_, _, _, ended⟩ | ⟨schema, fresh, published, ended⟩
      · simp only [ended]
        exact .still
      · simp only [ended]
        exact .still
      · have moved := (EntitySchema.moveTo_eq_ok_iff.1 published).2
        simp only [ended]
        rw [same] at fresh moved ⊢
        exact .publish submitted ⟨_, acceptable⟩ fresh schema moved

private theorem transition_setDefault (registry : Registry) (name version : String) :
    Transition registry
      ((outcome (setDefault name version) registry).1.toOption.map fun _ => .chosen name version)
      (outcome (setDefault name version) registry).2 := by
  rcases setDefault_cases registry name version with
    ⟨_, ended⟩ | ⟨_, _, _, ended⟩ | ⟨record, found, live, ended⟩
  · rw [ended]
    exact .still
  · rw [ended]
    exact .still
  · rw [ended]
    exact .choose name version record found live

private theorem transition_retire (registry : Registry) (name version : String) :
    Transition registry
      ((outcome (retire name version) registry).1.toOption.map fun _ => .retired name version)
      (outcome (retire name version) registry).2 := by
  rcases retire_cases registry name version with
    ⟨_, ended⟩ | ⟨_, _, _, ended⟩ | ⟨_, _, _, _, _, _, ended⟩ |
      ⟨record, schema, retired, found, known, moved, ended⟩
  · rw [ended]
    exact .still
  · rw [ended]
    exact .still
  · rw [ended]
    exact .still
  · obtain ⟨allowed, same⟩ := EntitySchema.moveTo_eq_ok_iff.1 moved
    rw [ended, same]
    exact .retire name version record schema found known (canMoveTo_retired_iff.1 allowed)

private theorem transition_remove (registry : Registry) (name version : String) :
    Transition registry
      ((outcome (remove name version) registry).1.toOption.map fun _ => .removed name version)
      (outcome (remove name version) registry).2 := by
  rcases remove_cases registry name version with
    ⟨_, ended⟩ | ⟨_, _, _, ended⟩ | ⟨record, schema, found, known, ended⟩
  · rw [ended]
    exact .still
  · rw [ended]
    exact .still
  · rw [ended]
    exact .remove name version record schema found known

namespace Session

/-- Whatever a session holds back has been accepted by the judge of its registry. -/
def Vetted (session : Session) : Prop :=
  ∀ validated ∈ session.validated,
    ∃ catalog, Metadata.Acceptable catalog session.registry.judge validated.metadata

theorem vetted_start (config : Config) (judge : DataStoreJudge) :
    (start config judge).Vetted := by
  intro validated held
  cases held

/-- Every operation on a session of which all that is held back was accepted makes a
transition. -/
theorem transition
    {session : Session} (vetted : session.Vetted) (action : Action) :
    Transition session.registry (session.event? action) (session.step action).registry := by
  cases action with
  | validate submitted =>
      rw [step_validate_registry]
      exact .still
  | publish slot =>
      cases held : session.validated[slot]? with
      | none =>
          simp only [step, event?, held]
          exact .still
      | some validated =>
          have happened := transition_publish (vetted validated (List.mem_of_getElem? held))
          simpa [step, event?, held, Option.map_eq_bind, Function.comp_def] using happened
  | register submitted => exact transition_register session.registry submitted
  | setDefault name version => exact transition_setDefault session.registry name version
  | retire name version => exact transition_retire session.registry name version
  | remove name version => exact transition_remove session.registry name version

theorem Vetted.step
    {session : Session} (vetted : session.Vetted) (action : Action) :
    (session.step action).Vetted := by
  have sameJudge := (transition vetted action).judge_eq
  intro validated held
  rw [sameJudge]
  have old (kept : (session.step action).validated = session.validated) :
      ∃ catalog, Metadata.Acceptable catalog session.registry.judge validated.metadata := by
    rw [kept] at held
    exact vetted validated held
  cases action with
  | validate submitted =>
      simp only [Session.step] at held
      split at held
      · next accepted passed =>
          rcases List.mem_append.1 held with before | new
          · exact vetted validated before
          · obtain ⟨acceptable, same⟩ := acceptable_of_validate passed
            rw [List.mem_singleton.1 new, same]
            exact ⟨_, acceptable_status acceptable .validated⟩
      · exact vetted validated held
  | publish slot =>
      apply old
      simp only [Session.step]
      split <;> rfl
  | register submitted => exact old rfl
  | setDefault name version => exact old rfl
  | retire name version => exact old rfl
  | remove name version => exact old rfl

theorem Vetted.run
    {session : Session} (vetted : session.Vetted) (actions : List Action) :
    (session.run actions).Vetted := by
  induction actions generalizing session with
  | nil => exact vetted
  | cons action rest hypothesis => exact hypothesis (vetted.step action)

/-- What holds of a registry and its history, and is kept by every transition, holds after every
run of the history that the run makes longer. -/
theorem run_invariant
    {holds : Registry → List Event → Prop}
    (kept : ∀ registry history event later,
      holds registry history → Transition registry event later →
        holds later (history ++ event.toList))
    {session : Session} (vetted : session.Vetted)
    {history : List Event} (atStart : holds session.registry history)
    (actions : List Action) :
    holds (session.run actions).registry (history ++ session.events actions) := by
  induction actions generalizing session history with
  | nil => simpa [events] using atStart
  | cons action rest hypothesis =>
      have stepped := kept _ _ _ _ atStart (transition vetted action)
      have ran := hypothesis (vetted.step action) stepped
      rwa [List.append_assoc] at ran

end Session
end Schemata.Registry

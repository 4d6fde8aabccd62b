import Schemata.Proofs.Registry.DefaultVersion
import Schemata.Proofs.Registry.History

/-!
# Published versions

What is registered under a version of an entity changes by three events only: its publication, its
retirement, which leaves everything but its status, and its removal. Until it is removed the version
is found, and nobody can publish another schema in its place.
-/
namespace Schemata.Registry

open Attempt

variable {registry later : Registry} {name version : String} {event : Option Event}

def Event.registered (name version : String) (before : Option EntitySchema) :
    Event → Option EntitySchema
  | .published submitted schema =>
      if name = submitted.info.name ∧ version = submitted.version then some schema else before
  | .chosen _ _ => before
  | .retired other number =>
      if name = other ∧ version = number then
        before.map fun schema => { schema with status := .retired }
      else before
  | .removed other number => if name = other ∧ version = number then none else before

theorem Transition.schema?_eq
    {event : Event} (transition : Transition registry (some event) later)
    (name version : String) :
    later.schema? name version =
      event.registered name version (registry.schema? name version) := by
  cases transition with
  | publish submitted accepted fresh schema published =>
      have sameNumber : schema.version.number = submitted.version := by
        rw [published]
        rfl
      rw [schema?_putRecord, publishedRecord_find?, sameNumber, Event.registered]
      by_cases sameName : name = submitted.info.name
      · simp [sameName, schema?]
      · simp [sameName]
  | choose other number record found live =>
      rw [schema?_putRecord, Event.registered]
      split
      · next sameName => rw [sameName, schema?_of_record found]
      · rfl
  | retire other number record schema found known published =>
      rw [schema?_putRecord, find?_retire, Event.registered]
      by_cases sameName : name = other
      · subst sameName
        rw [schema?_of_record found]
        by_cases sameNumber : version = number
        · simp [sameNumber, known]
        · simp [sameNumber]
      · simp [sameName]
  | remove other number record schema found known =>
      rw [schema?_putOrDrop, find?_removeVersion, Event.registered]
      by_cases sameName : name = other
      · subst sameName
        rw [schema?_of_record found]
        by_cases sameNumber : version = number
        · simp [sameNumber]
        · simp [sameNumber]
      · simp [sameName]

/-- Nothing is registered yet under a version that is published, and the schema that is published
bears the name and the number of what was submitted. -/
theorem Transition.published
    {submitted : EntityMetadata} {schema : EntitySchema}
    (transition : Transition registry (some (.published submitted schema)) later) :
    registry.schema? submitted.info.name submitted.version = none ∧
      schema.name = submitted.info.name ∧ schema.version.number = submitted.version ∧
      schema.status = .published := by
  cases transition with
  | publish _ accepted fresh _ published =>
      obtain ⟨catalog, acceptable⟩ := accepted
      have nothing := schema?_of_not_hasVersion fresh
      subst published
      exact ⟨nothing, acceptable.namesAgree, rfl, rfl⟩

/-- The status of a version by what has happened since it was published. -/
def statusAfter (history : List Event) (name version : String) : SchemaStatus :=
  if history.any (Event.retires name version) then .retired else .published

/-- As long as the version is not removed, it has the schema with which it was published. -/
def Keeps
    (name version : String) (schema : EntitySchema) (registry : Registry)
    (history : List Event) : Prop :=
  history.any (Event.removes name version) = false →
    registry.schema? name version =
      some { schema with status := statusAfter history name version }

theorem Keeps.transition
    {schema : EntitySchema} {history : List Event}
    (keeps : Keeps name version schema registry history)
    (transition : Transition registry event later) :
    Keeps name version schema later (history ++ event.toList) := by
  intro notRemoved
  cases event with
  | none =>
      cases transition
      rw [Option.toList_none, List.append_nil] at notRemoved ⊢
      exact keeps notRemoved
  | some event =>
      simp only [Option.toList_some, List.any_append, List.any_cons, List.any_nil,
        Bool.or_false, Bool.or_eq_false_iff] at notRemoved
      have before := keeps notRemoved.1
      have after := transition.schema?_eq name version
      rw [before] at after
      rw [after]
      cases event with
      | published submitted other =>
          have otherVersion : ¬ (name = submitted.info.name ∧ version = submitted.version) := by
            rintro ⟨sameName, sameNumber⟩
            have nothing := transition.published.1
            rw [← sameName, ← sameNumber, before] at nothing
            cases nothing
          simp [Event.registered, otherVersion, statusAfter, Event.retires]
      | chosen other number => simp [Event.registered, statusAfter, Event.retires]
      | retired other number =>
          by_cases same : name = other ∧ version = number
          · simp [Event.registered, statusAfter, Event.retires, same]
          · have differs : ¬ (other = name ∧ number = version) := by
              rintro ⟨rfl, rfl⟩
              exact same ⟨rfl, rfl⟩
            simp [Event.registered, statusAfter, Event.retires, same, differs]
      | removed other number =>
          have otherVersion : ¬ (name = other ∧ version = number) := by
            rintro ⟨rfl, rfl⟩
            have removed := notRemoved.2
            simp [Event.removes] at removed
          simp [Event.registered, otherVersion, statusAfter, Event.retires]

private theorem outcome_publish_of_hasVersion
    {validated : ValidatedMetadata}
    (known : registry.hasVersion validated.metadata.info.name validated.metadata.version = true) :
    outcome (publish validated) registry =
      (.error (.duplicateVersion validated.metadata.info.name validated.metadata.version),
        registry) := by
  rcases publish_cases registry validated with
    ⟨_, ended⟩ | ⟨_, fresh, _, _⟩ | ⟨_, fresh, _, _⟩
  · exact ended
  · exact absurd (known.symm.trans fresh) (by decide)
  · exact absurd (known.symm.trans fresh) (by decide)

private theorem validate_of_hasVersion
    {submitted : EntityMetadata}
    (known : registry.hasVersion submitted.info.name submitted.version = true) :
    registry.validate submitted =
      .error (.duplicateVersion submitted.info.name submitted.version) := by
  rw [Registry.validate, if_pos known]

private theorem outcome_register_of_hasVersion
    {submitted : EntityMetadata}
    (known : registry.hasVersion submitted.info.name submitted.version = true) :
    outcome (register submitted) registry =
      (.error (.duplicateVersion submitted.info.name submitted.version), registry) := by
  rw [outcome_register, validate_of_hasVersion known]

/-- A version that a publication has answered with a schema is found from then on until it is
removed. Its schema stays what it was, published at first and retired once it has been retired, and
whatever else is submitted, validated or published under its number is refused. -/
theorem published_version_kept
    (config : Config) (judge : DataStoreJudge)
    (before : List Action) (action : Action) (after : List Action)
    (submitted : EntityMetadata) (schema : EntitySchema)
    (published :
      ((Session.start config judge).run before).event? action =
        some (.published submitted schema))
    (notRemoved :
      (((Session.start config judge).run (before ++ [action])).events after).any
        (Event.removes submitted.info.name submitted.version) = false) :
    let name := submitted.info.name
    let version := submitted.version
    let since := ((Session.start config judge).run (before ++ [action])).events after
    let registry := ((Session.start config judge).run (before ++ action :: after)).registry
    registry.resolve name (some version) =
        .ok { schema with
          status := if since.any (Event.retires name version) then .retired else .published } ∧
      schema.name = name ∧ schema.version.number = version ∧
      (∀ again : EntityMetadata, again.info.name = name → again.version = version →
        registry.validate again = .error (.duplicateVersion name version) ∧
          outcome (register again) registry =
            (.error (.duplicateVersion name version), registry)) ∧
      ∀ held : ValidatedMetadata,
        held.metadata.info.name = name → held.metadata.version = version →
          outcome (publish held) registry =
            (.error (.duplicateVersion name version), registry) := by
  intro name version since registry
  let session := (Session.start config judge).run before
  have vetted : session.Vetted := (Session.vetted_start config judge).run before
  have transition := Session.transition vetted action
  rw [published] at transition
  obtain ⟨_, sameName, sameNumber, isPublished⟩ := transition.published
  have atFirst : Keeps name version schema (session.step action).registry [] := by
    intro _
    rw [transition.schema?_eq]
    simp [Event.registered, name, version, statusAfter, ← isPublished]
  have throughout := Session.run_invariant
    (fun _ _ _ _ keeps happened => Keeps.transition keeps happened)
    (vetted.step action) atFirst after
  have sameSession :
      (Session.start config judge).run (before ++ [action]) = session.step action := by
    simp [session]
  have sameRegistry : ((session.step action).run after).registry = registry := by
    simp [registry, session, Session.run]
  rw [List.nil_append, sameRegistry, ← sameSession] at throughout
  have known := throughout notRemoved
  have hasVersion : registry.hasVersion name version = true := by
    rw [hasVersion_eq_isSome, known]
    rfl
  refine ⟨resolve_of_schema? known, sameName, sameNumber, ?_, ?_⟩
  · intro again sameEntity sameVersion
    rw [← sameEntity, ← sameVersion] at hasVersion ⊢
    exact ⟨validate_of_hasVersion hasVersion, outcome_register_of_hasVersion hasVersion⟩
  · intro held sameEntity sameVersion
    rw [← sameEntity, ← sameVersion] at hasVersion ⊢
    exact outcome_publish_of_hasVersion hasVersion

/-- A version that was held back, published and retired while another version came and went. -/
theorem retired_version_is_found :
    let order := (orderVersion "1.0.0" none).schema
    let accepted : EntityMetadata :=
      { orderVersion "1.0.0" none with schema := { order with status := .validated } }
    let before := [Action.validate (orderVersion "1.0.0" none)]
    let after :=
      [.register (orderVersion "1.1.0" none), .retire "Order" "1.0.0", .remove "Order" "1.1.0"]
    let session := Session.start .standard Config.standard.judge
    (session.run before).event? (.publish 0) =
        some (.published accepted { order with status := .published }) ∧
      ((session.run (before ++ [.publish 0])).events after).any
        (Event.removes "Order" "1.0.0") = false ∧
      (session.run (before ++ .publish 0 :: after)).registry.resolve "Order" (some "1.0.0") =
        .ok { order with status := .retired } := by
  intro order accepted before after session
  have published :
      (session.run before).event? (.publish 0) =
        some (.published accepted { order with status := .published }) := rfl
  have notRemoved :
      ((session.run (before ++ [.publish 0])).events after).any
        (Event.removes "Order" "1.0.0") = false := by
    decide +kernel
  have retired :
      ((session.run (before ++ [.publish 0])).events after).any
        (Event.retires accepted.info.name accepted.version) = true := by
    decide +kernel
  have kept := (published_version_kept .standard Config.standard.judge before (.publish 0) after
    accepted { order with status := .published } published notRemoved).1
  rw [if_pos retired] at kept
  exact ⟨published, notRemoved, kept⟩

end Schemata.Registry

import Schemata.Proofs.Metadata.Checks
import Schemata.Proofs.SortedMap
import Schemata.Registry.Lifecycle

/-!
# Steps of a registry

Everything that an operation on a registry can do: each way in which it ends, with what has to
hold for it, the answer, and the registry afterwards. A failed operation leaves the registry as
it was.
-/
namespace Schemata.Registry

open Attempt

theorem record_eq
    (registry : Registry) (name : String) :
    registry.record name =
      match registry.entities.find? name with
      | some record => .ok record
      | none => .error (.entityNotFound name) := by
  unfold Registry.record
  cases registry.entities.find? name <;> rfl

theorem versionOf_eq
    (record : EntityRecord) (name version : String) :
    versionOf record name version =
      match record.versions.find? version with
      | some schema => .ok schema
      | none => .error (.versionNotFound name version) := by
  unfold versionOf
  cases record.versions.find? version <;> rfl

@[simp]
theorem addVersion_name
    (info : EntityInfo) (version : String) :
    (info.addVersion version).name = info.name :=
  rfl

theorem isLive_record_iff {record : EntityRecord} {version : String} :
    record.isLive version = true ↔
      ∃ schema, record.versions.find? version = some schema ∧ schema.status ≠ .retired := by
  simp [EntityRecord.isLive, Option.any_eq_true]

theorem isLive_iff {registry : Registry} {name version : String} :
    registry.isLive name version = true ↔
      ∃ record,
        registry.entities.find? name = some record ∧ record.isLive version = true := by
  simp [Registry.isLive, Option.any_eq_true]

@[simp]
theorem find?_putRecord
    (registry : Registry) (name other : String) (record : EntityRecord) :
    (registry.putRecord name record).entities.find? other =
      if other = name then some record else registry.entities.find? other :=
  SortedMap.find?_insert registry.entities name other record

theorem find?_putOrDrop
    (registry : Registry) (name other : String) (record : EntityRecord) :
    (registry.putOrDrop name record).entities.find? other =
      if other = name then (if record.versions.isEmpty then none else some record)
      else registry.entities.find? other := by
  unfold putOrDrop
  split
  · exact SortedMap.find?_erase registry.entities name other
  · exact find?_putRecord registry name other record

@[simp]
theorem judge_putOrDrop (registry : Registry) (name : String) (record : EntityRecord) :
    (registry.putOrDrop name record).judge = registry.judge := by
  unfold putOrDrop
  split <;> rfl

@[simp]
theorem config_putOrDrop (registry : Registry) (name : String) (record : EntityRecord) :
    (registry.putOrDrop name record).config = registry.config := by
  unfold putOrDrop
  split <;> rfl

def schema? (registry : Registry) (name version : String) : Option EntitySchema :=
  (registry.entities.find? name).bind fun record => record.versions.find? version

theorem schema?_of_record
    {registry : Registry} {name version : String} {record : EntityRecord}
    (found : registry.entities.find? name = some record) :
    registry.schema? name version = record.versions.find? version := by
  simp [schema?, found]

theorem hasVersion_eq_isSome (registry : Registry) (name version : String) :
    registry.hasVersion name version = (registry.schema? name version).isSome := by
  unfold hasVersion schema? SortedMap.contains
  cases registry.entities.find? name <;> rfl

theorem schema?_of_not_hasVersion
    {registry : Registry} {name version : String}
    (unknown : registry.hasVersion name version = false) :
    registry.schema? name version = none := by
  rw [hasVersion_eq_isSome] at unknown
  simpa using unknown

theorem resolve_of_schema?
    {registry : Registry} {name version : String} {schema : EntitySchema}
    (known : registry.schema? name version = some schema) :
    registry.resolve name (some version) = .ok schema := by
  obtain ⟨record, found, here⟩ := Option.bind_eq_some_iff.1 known
  rw [resolve, record_eq, found]
  show versionOf record name version = .ok schema
  rw [versionOf_eq, here]

theorem schema?_putRecord
    (registry : Registry) (changed name version : String) (record : EntityRecord) :
    (registry.putRecord changed record).schema? name version =
      if name = changed then record.versions.find? version
      else registry.schema? name version := by
  unfold schema?
  rw [find?_putRecord]
  split <;> rfl

theorem schema?_putOrDrop
    (registry : Registry) (changed name version : String) (record : EntityRecord) :
    (registry.putOrDrop changed record).schema? name version =
      if name = changed then record.versions.find? version
      else registry.schema? name version := by
  unfold schema?
  rw [find?_putOrDrop]
  split
  · cases empty : record.versions.isEmpty with
    | true =>
        have nothing := SortedMap.isEmpty_iff_find?.1 empty version
        simp [nothing]
    | false => simp
  · rfl

private theorem canMoveTo_validated_iff {status : SchemaStatus} :
    status.canMoveTo .validated = true ↔ status = .proposed := by
  cases status <;> decide

/-- A validation succeeds exactly if the version is new, all checks pass and the schema is at the
start of its lifecycle. It changes the status of the schema and nothing else. -/
theorem validate_eq_ok_iff
    {registry : Registry} {submitted : EntityMetadata} {validated : ValidatedMetadata} :
    registry.validate submitted = .ok validated ↔
      registry.hasVersion submitted.info.name submitted.version = false ∧
        Metadata.Acceptable (registry.catalogFor submitted) registry.judge submitted ∧
        submitted.schema.status = .proposed ∧
        validated.metadata =
          { submitted with schema := { submitted.schema with status := .validated } } := by
  unfold Registry.validate
  cases known : registry.hasVersion submitted.info.name submitted.version with
  | true => simp
  | false =>
      simp only [Bool.false_eq_true, if_false, true_and, ValidatedMetadata.of_eq_ok_iff,
        Metadata.validate_eq_ok_iff, canMoveTo_validated_iff]

theorem acceptable_of_validate
    {registry : Registry} {submitted : EntityMetadata} {validated : ValidatedMetadata}
    (passed : registry.validate submitted = .ok validated) :
    Metadata.Acceptable (registry.catalogFor submitted) registry.judge submitted ∧
      validated.metadata =
        { submitted with schema := { submitted.schema with status := .validated } } := by
  obtain ⟨_, acceptable, _, same⟩ := validate_eq_ok_iff.1 passed
  exact ⟨acceptable, same⟩

/-- The record of a submission's entity once its schema is published. -/
def publishedRecord
    (registry : Registry) (submitted : EntityMetadata) (schema : EntitySchema) :
    EntityRecord :=
  (registry.recordFor (submitted.info.addVersion submitted.version)).putVersion schema

/-- A published record has its new version besides those from before. -/
theorem publishedRecord_find?
    (registry : Registry) (submitted : EntityMetadata) (schema : EntitySchema)
    (version : String) :
    (registry.publishedRecord submitted schema).versions.find? version =
      if version = schema.version.number then some schema
      else (registry.entities.find? submitted.info.name).bind
        fun record => record.versions.find? version := by
  unfold publishedRecord recordFor
  rw [addVersion_name]
  cases registry.entities.find? submitted.info.name with
  | none => exact SortedMap.find?_insert ∅ schema.version.number version schema
  | some record => exact SortedMap.find?_insert record.versions _ version schema

/-- After a publication the versions of the entity that are live are its own one and those from
before. -/
theorem isLive_publishedRecord_iff
    (registry : Registry) {submitted : EntityMetadata} {schema : EntitySchema}
    (published : schema = { submitted.schema with status := .published }) (version : String) :
    (registry.publishedRecord submitted schema).isLive version = true ↔
      version = submitted.version ∨ registry.isLive submitted.info.name version = true := by
  have sameNumber : schema.version.number = submitted.version := by
    rw [published]
    rfl
  have notRetired : schema.status ≠ .retired := by
    simp [published]
  rw [isLive_record_iff, publishedRecord_find?, sameNumber, isLive_iff]
  by_cases own : version = submitted.version
  · simp [own, notRetired]
  · simp only [own, if_false, false_or, Option.bind_eq_some_iff, isLive_record_iff]
    constructor
    · rintro ⟨found, ⟨record, recordFound, known⟩, foundNotRetired⟩
      exact ⟨record, recordFound, found, known, foundNotRetired⟩
    · rintro ⟨record, recordFound, found, known, foundNotRetired⟩
      exact ⟨found, ⟨record, recordFound, known⟩, foundNotRetired⟩

/-- What is published is found under the entity and the version of the submission. -/
theorem schema?_publishedRecord
    (registry : Registry) {submitted : EntityMetadata} {schema : EntitySchema}
    (published : submitted.schema.moveTo .published = .ok schema) :
    (registry.putRecord submitted.info.name
        (registry.publishedRecord submitted schema)).schema?
      submitted.info.name submitted.version = some schema := by
  have sameNumber : submitted.version = schema.version.number := by
    rw [(EntitySchema.moveTo_eq_ok_iff.1 published).2]
    rfl
  rw [schema?_putRecord, if_pos rfl, publishedRecord_find?, if_pos sameNumber]

theorem publish_cases
    (registry : Registry) (validated : ValidatedMetadata) :
    let submitted := validated.metadata
    let name := submitted.info.name
    (registry.hasVersion name submitted.version = true ∧
        outcome (publish validated) registry =
          (.error (.duplicateVersion name submitted.version), registry)) ∨
      (∃ move,
        registry.hasVersion name submitted.version = false ∧
          submitted.schema.moveTo .published = .error move ∧
          outcome (publish validated) registry = (.error (.transition move), registry)) ∨
      (∃ schema,
        registry.hasVersion name submitted.version = false ∧
          submitted.schema.moveTo .published = .ok schema ∧
          outcome (publish validated) registry =
            (.ok schema,
              registry.putRecord name (registry.publishedRecord submitted schema))) := by
  intro submitted name
  cases known : registry.hasVersion name submitted.version with
  | true =>
      exact Or.inl ⟨rfl, by simp [publish, submitted, name, known]⟩
  | false =>
      refine Or.inr ?_
      cases moved : submitted.schema.moveTo .published with
      | error move =>
          exact Or.inl ⟨move, rfl, rfl, by
            simp [publish, submitted, name, known, moved]⟩
      | ok schema =>
          exact Or.inr ⟨schema, rfl, rfl, by
            simp [publish, publishedRecord, submitted, name, known, moved]⟩

theorem outcome_register
    (registry : Registry) (submitted : EntityMetadata) :
    outcome (register submitted) registry =
      match registry.validate submitted with
      | .ok validated => outcome (publish validated) registry
      | .error error => (.error error, registry) := by
  simp only [register, outcome_bind, outcome_look]
  cases registry.validate submitted <;> rfl

/-- What has been validated can be published at once. -/
theorem outcome_publish_of_validate
    {registry : Registry} {submitted : EntityMetadata} {validated : ValidatedMetadata}
    (passed : registry.validate submitted = .ok validated) :
    let schema : EntitySchema := { submitted.schema with status := .published }
    outcome (publish validated) registry =
      (.ok schema,
        registry.putRecord submitted.info.name (registry.publishedRecord submitted schema)) := by
  intro schema
  obtain ⟨fresh, _, _, same⟩ := validate_eq_ok_iff.1 passed
  have stillFresh :
      registry.hasVersion validated.metadata.info.name validated.metadata.version = false := by
    rw [same]
    exact fresh
  have moves : validated.metadata.schema.moveTo .published = .ok schema := by
    rw [same]
    rfl
  rcases publish_cases registry validated with
    ⟨known, _⟩ | ⟨move, _, refused, _⟩ | ⟨published, _, moved, ended⟩
  · rw [stillFresh] at known
    cases known
  · rw [moves] at refused
    cases refused
  · rw [moves] at moved
    cases moved
    rw [ended, same]
    rfl

/-- A registration succeeds exactly if the version is new, all checks pass and the schema is at the
start of its lifecycle. It puts the published schema into the record of the entity. -/
theorem outcome_register_eq_ok_iff
    {registry later : Registry} {submitted : EntityMetadata} {schema : EntitySchema} :
    outcome (register submitted) registry = (.ok schema, later) ↔
      registry.hasVersion submitted.info.name submitted.version = false ∧
        Metadata.Acceptable (registry.catalogFor submitted) registry.judge submitted ∧
        submitted.schema.status = .proposed ∧
        schema = { submitted.schema with status := .published } ∧
        later =
          registry.putRecord submitted.info.name (registry.publishedRecord submitted schema) := by
  rw [outcome_register]
  constructor
  · intro done
    cases passed : registry.validate submitted with
    | error error =>
        rw [passed] at done
        cases done
    | ok validated =>
        obtain ⟨fresh, acceptable, proposed, _⟩ := validate_eq_ok_iff.1 passed
        have published : outcome (publish validated) registry = (.ok schema, later) := by
          rwa [passed] at done
        rw [outcome_publish_of_validate passed] at published
        cases published
        exact ⟨fresh, acceptable, proposed, rfl, rfl⟩
  · rintro ⟨fresh, acceptable, proposed, rfl, rfl⟩
    have validates :=
      Metadata.validate_eq_ok_iff.2 ⟨acceptable, canMoveTo_validated_iff.2 proposed, rfl⟩
    let validated : ValidatedMetadata := ⟨_, _, _, _, validates⟩
    have passed : registry.validate submitted = .ok validated :=
      validate_eq_ok_iff.2 ⟨fresh, acceptable, proposed, rfl⟩
    rw [passed]
    exact outcome_publish_of_validate passed

theorem find?_retire
    (record : EntityRecord) (version other : String) (retired : EntitySchema) :
    (record.retire version retired).versions.find? other =
      if other = version then some retired else record.versions.find? other :=
  SortedMap.find?_insert record.versions version other retired

theorem find?_removeVersion (record : EntityRecord) (version other : String) :
    (record.removeVersion version).versions.find? other =
      if other = version then none else record.versions.find? other :=
  SortedMap.find?_erase record.versions version other

theorem setDefault_cases
    (registry : Registry) (name version : String) :
    (registry.entities.find? name = none ∧
        outcome (setDefault name version) registry =
          (.error (.entityNotFound name), registry)) ∨
      (∃ record,
        registry.entities.find? name = some record ∧
          record.isLive version = false ∧
          outcome (setDefault name version) registry =
            (.error (.invalidDefaultVersion name version), registry)) ∨
      (∃ record,
        registry.entities.find? name = some record ∧
          record.isLive version = true ∧
          outcome (setDefault name version) registry =
            (.ok ⟨⟩,
              registry.putRecord name
                { record with info := record.info.withDefault version })) := by
  cases found : registry.entities.find? name with
  | none =>
      exact Or.inl ⟨rfl, by simp [setDefault, record_eq, found]⟩
  | some record =>
      refine Or.inr ?_
      cases live : record.isLive version with
      | false =>
          exact Or.inl ⟨record, rfl, live, by
            simp [setDefault, record_eq, found, live]⟩
      | true =>
          exact Or.inr ⟨record, rfl, live, by
            simp [setDefault, record_eq, found, live]⟩

theorem retire_cases
    (registry : Registry) (name version : String) :
    (registry.entities.find? name = none ∧
        outcome (retire name version) registry =
          (.error (.entityNotFound name), registry)) ∨
      (∃ record,
        registry.entities.find? name = some record ∧
          record.versions.find? version = none ∧
          outcome (retire name version) registry =
            (.error (.versionNotFound name version), registry)) ∨
      (∃ record schema move,
        registry.entities.find? name = some record ∧
          record.versions.find? version = some schema ∧
          schema.moveTo .retired = .error move ∧
          outcome (retire name version) registry =
            (.error (.transition move), registry)) ∨
      (∃ record schema retired,
        registry.entities.find? name = some record ∧
          record.versions.find? version = some schema ∧
          schema.moveTo .retired = .ok retired ∧
          outcome (retire name version) registry =
            (.ok retired, registry.putRecord name (record.retire version retired))) := by
  cases found : registry.entities.find? name with
  | none =>
      exact Or.inl ⟨rfl, by simp [retire, record_eq, found]⟩
  | some record =>
      refine Or.inr ?_
      cases known : record.versions.find? version with
      | none =>
          exact Or.inl ⟨record, rfl, known, by
            simp [retire, record_eq, versionOf_eq, found, known]⟩
      | some schema =>
          refine Or.inr ?_
          cases moved : schema.moveTo .retired with
          | error move =>
              exact Or.inl ⟨record, schema, move, rfl, known, moved, by
                simp [retire, record_eq, versionOf_eq, found, known, moved]⟩
          | ok retired =>
              exact Or.inr ⟨record, schema, retired, rfl, known, moved, by
                simp [retire, record_eq, versionOf_eq, found, known, moved]⟩

theorem remove_cases
    (registry : Registry) (name version : String) :
    (registry.entities.find? name = none ∧
        outcome (remove name version) registry =
          (.error (.entityNotFound name), registry)) ∨
      (∃ record,
        registry.entities.find? name = some record ∧
          record.versions.find? version = none ∧
          outcome (remove name version) registry =
            (.error (.versionNotFound name version), registry)) ∨
      (∃ record schema,
        registry.entities.find? name = some record ∧
          record.versions.find? version = some schema ∧
          outcome (remove name version) registry =
            (.ok schema, registry.putOrDrop name (record.removeVersion version))) := by
  cases found : registry.entities.find? name with
  | none =>
      exact Or.inl ⟨rfl, by simp [remove, record_eq, found]⟩
  | some record =>
      refine Or.inr ?_
      cases known : record.versions.find? version with
      | none =>
          exact Or.inl ⟨record, rfl, known, by
            simp [remove, record_eq, versionOf_eq, found, known]⟩
      | some schema =>
          exact Or.inr ⟨record, schema, rfl, known, by
            simp [remove, record_eq, versionOf_eq, found, known]⟩

end Schemata.Registry

import Schemata.Metadata.Validation
import Schemata.Proofs.Attempt

/-!
# What passes the checks

Metadata pass all checks exactly if each of the six conditions holds, and a validation that
succeeds changes nothing but the status of the schema.
-/
namespace Schemata

theorem EntitySchema.moveTo_eq_ok_iff
    {schema moved : EntitySchema} {goal : SchemaStatus} :
    schema.moveTo goal = .ok moved ↔
      schema.status.canMoveTo goal = true ∧ moved = { schema with status := goal } := by
  unfold EntitySchema.moveTo SchemaStatus.moveTo
  cases schema.status.canMoveTo goal with
  | false => simp [Except.map]
  | true => simp [Except.map, eq_comm]

theorem acceptBackends_eq_ok_iff {accepted : TextSet} {info : EntityInfo} :
    acceptBackends accepted info = .ok () ↔
      info.dataStore.backend ≠ "" ∧ accepted.contains info.dataStore.backend = true := by
  unfold acceptBackends
  by_cases empty : info.dataStore.backend = ""
  · simp [empty]
  · cases contained : accepted.contains info.dataStore.backend <;> simp [empty, contained]

namespace Metadata

theorem checkName_eq_ok_iff {info : EntityInfo} :
    checkName info = .ok () ↔ info.name ≠ "" := by
  unfold checkName
  split <;> simp_all

private theorem checkNamesAgree_eq_ok_iff {metadata : EntityMetadata} :
    checkNamesAgree metadata = .ok () ↔ metadata.schema.name = metadata.info.name := by
  unfold checkNamesAgree
  split <;> simp_all

theorem checkVersion_eq_ok_iff {version checked : Version} :
    checkVersion version = .ok checked ↔
      Version.isNumber version.number = true ∧ checked = version := by
  unfold checkVersion
  by_cases empty : version.number = ""
  · have notNumber : Version.isNumber "" = false := by decide
    simp [empty, notNumber]
  · cases Version.isNumber version.number <;> simp [empty, eq_comm]

private theorem checkHasFields_eq_ok_iff {schema : EntitySchema} :
    checkHasFields schema = .ok () ↔ schema.fields.isEmpty = false := by
  unfold checkHasFields
  split <;> simp_all

private theorem checkDataStore_eq_ok_iff {judge : DataStoreJudge} {info : EntityInfo} :
    checkDataStore judge info = .ok () ↔ judge info = .ok () :=
  mapError_eq_ok_iff

private theorem checkDefaultVersion_eq_ok_iff {catalog : VersionCatalog} {info : EntityInfo} :
    checkDefaultVersion catalog info = .ok () ↔
      ∀ version, info.defaultVersion = some version → catalog info.name version = true := by
  unfold checkDefaultVersion
  cases info.defaultVersion with
  | none => simp
  | some version => cases accepted : catalog info.name version <;> simp [accepted]

/-- A catalog is only asked about the versions of the entity itself. -/
theorem checkDefaultVersion_congr
    {left right : VersionCatalog} {info : EntityInfo}
    (agree : ∀ version, left info.name version = right info.name version) :
    checkDefaultVersion left info = checkDefaultVersion right info := by
  unfold checkDefaultVersion
  cases info.defaultVersion with
  | none => rfl
  | some version => simp only [agree]

/-- The conditions that submitted metadata have to meet. -/
structure Acceptable
    (catalog : VersionCatalog) (judge : DataStoreJudge) (metadata : EntityMetadata) : Prop where
  named : metadata.info.name ≠ ""
  namesAgree : metadata.schema.name = metadata.info.name
  numbered : Version.isNumber metadata.version = true
  hasFields : metadata.schema.fields.isEmpty = false
  stored : judge metadata.info = .ok ()
  defaultExists :
    ∀ version, metadata.info.defaultVersion = some version →
      catalog metadata.info.name version = true

private theorem check_eq_ok_iff
    {catalog : VersionCatalog} {judge : DataStoreJudge} {metadata : EntityMetadata} :
    check catalog judge metadata = .ok () ↔ Acceptable catalog judge metadata := by
  simp only [check, check_bind_eq_ok_iff, checkName_eq_ok_iff, checkNamesAgree_eq_ok_iff,
    discard_eq_ok_iff, checkVersion_eq_ok_iff, checkHasFields_eq_ok_iff,
    checkDataStore_eq_ok_iff, checkDefaultVersion_eq_ok_iff]
  constructor
  · rintro ⟨named, namesAgree, ⟨_, numbered, _⟩, hasFields, stored, defaultExists⟩
    exact ⟨named, namesAgree, numbered, hasFields, stored, defaultExists⟩
  · rintro ⟨named, namesAgree, numbered, hasFields, stored, defaultExists⟩
    exact ⟨named, namesAgree, ⟨_, numbered, rfl⟩, hasFields, stored, defaultExists⟩

theorem validate_eq_ok_iff
    {catalog : VersionCatalog} {judge : DataStoreJudge} {submitted metadata : EntityMetadata} :
    validate catalog judge submitted = .ok metadata ↔
      Acceptable catalog judge submitted ∧
        submitted.schema.status.canMoveTo .validated = true ∧
        metadata = { submitted with schema := { submitted.schema with status := .validated } } := by
  rw [validate, check_bind_eq_ok_iff, check_eq_ok_iff, bind_eq_ok_iff]
  simp only [mapError_eq_ok_iff, EntitySchema.moveTo_eq_ok_iff]
  constructor
  · rintro ⟨acceptable, schema, ⟨allowed, rfl⟩, same⟩
    cases same
    exact ⟨acceptable, allowed, rfl⟩
  · rintro ⟨acceptable, allowed, rfl⟩
    exact ⟨acceptable, _, ⟨allowed, rfl⟩, rfl⟩

private theorem validate_congr
    {left right : VersionCatalog} {judge : DataStoreJudge} {submitted : EntityMetadata}
    (agree : ∀ version, left submitted.info.name version = right submitted.info.name version) :
    validate left judge submitted = validate right judge submitted := by
  unfold validate check
  rw [checkDefaultVersion_congr agree]

end Metadata

/-- Validated metadata are what the validation gave. -/
theorem ValidatedMetadata.of_eq_ok_iff
    {catalog : VersionCatalog} {judge : DataStoreJudge} {submitted : EntityMetadata}
    {validated : ValidatedMetadata} :
    ValidatedMetadata.of catalog judge submitted = .ok validated ↔
      Metadata.validate catalog judge submitted = .ok validated.metadata := by
  unfold ValidatedMetadata.of
  split
  · next error failed => simp [failed]
  · next metadata passed =>
      simp only [passed, Except.ok.injEq]
      constructor
      · rintro rfl
        rfl
      · intro same
        cases validated
        cases same
        rfl

/-- Catalogs that agree on the versions of the entity accept the same metadata, and give the same
reasons for a refusal. -/
theorem ValidatedMetadata.of_congr
    {left right : VersionCatalog} {judge : DataStoreJudge} {submitted : EntityMetadata}
    (agree : ∀ version, left submitted.info.name version = right submitted.info.name version) :
    ValidatedMetadata.of left judge submitted = ValidatedMetadata.of right judge submitted := by
  have same : Metadata.validate left judge submitted = Metadata.validate right judge submitted :=
    Metadata.validate_congr agree
  cases outcome : ValidatedMetadata.of right judge submitted with
  | ok validated =>
      rw [ValidatedMetadata.of_eq_ok_iff] at outcome ⊢
      rw [same, outcome]
  | error error =>
      unfold ValidatedMetadata.of at outcome ⊢
      split at outcome
      · next failed =>
          split
          · next other alsoFailed =>
              rw [same, failed] at alsoFailed
              cases alsoFailed
              exact outcome
          · next metadata passed =>
              rw [same, failed] at passed
              cases passed
      · cases outcome

end Schemata

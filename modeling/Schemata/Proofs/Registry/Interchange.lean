import Schemata.Proofs.Registry.DefaultVersion
import Schemata.Proofs.Registry.History
import Schemata.Proofs.Registry.Locality

/-!
# Lifecycle changes in any order

Two versions of an entity may be retired or removed in either order, and to retire a version that is
removed right after makes no difference. Both changes leave the roles of the entity to be folded
anew, so that nothing of the order in which they were made stays in the record.
-/
namespace Schemata

open Attempt

namespace EntityRecord

private theorem dropDefault_eq (version : String) (info : EntityInfo) :
    dropDefault version info =
      { info with defaultVersion := info.defaultVersion.filter (· ≠ version) } := by
  obtain ⟨name, versions, named, dataStore, roles⟩ := info
  cases named with
  | none => rfl
  | some other =>
      by_cases same : other = version
      · simp [dropDefault, same, Option.filter]
      · simp [dropDefault, same, Option.filter]

/-- The record once a version is given up: it is no default any more, and the versions that the
entity is known to have and those that are registered change as told. -/
def giveUp (version : String) (known : TextSet → TextSet)
    (registered : SortedMap String EntitySchema → SortedMap String EntitySchema)
    (record : EntityRecord) : EntityRecord :=
  refresh { record with
    info := dropDefault version
      { record.info with versions := known record.info.versions }
    versions := registered record.versions }

private theorem retire_eq_giveUp (record : EntityRecord) (version : String)
    (retired : EntitySchema) :
    record.retire version retired =
      record.giveUp version id (·.insert version retired) :=
  rfl

private theorem removeVersion_eq_giveUp (record : EntityRecord) (version : String) :
    record.removeVersion version =
      record.giveUp version (·.erase version) (·.erase version) :=
  rfl

section GiveUp

variable {known more : TextSet → TextSet}
  {registered further : SortedMap String EntitySchema → SortedMap String EntitySchema}

/-- Two versions may be given up in either order if the changes of the versions may change
places. -/
theorem giveUp_comm
    (knownCommute : ∀ set, more (known set) = known (more set))
    (registeredCommute : ∀ versions, further (registered versions) = registered (further versions))
    (record : EntityRecord) (version other : String) :
    (record.giveUp version known registered).giveUp other more further =
      (record.giveUp other more further).giveUp version known registered := by
  have sameDefault (named : Option String) :
      (named.filter (· ≠ version)).filter (· ≠ other) =
        (named.filter (· ≠ other)).filter (· ≠ version) := by
    simp only [Option.filter_filter, Bool.and_comm]
  simp only [giveUp, refresh, liveRoles, dropDefault_eq, knownCommute, registeredCommute,
    sameDefault]

/-- To give a version up twice is to give it up once, with both changes of the versions. -/
theorem giveUp_giveUp (record : EntityRecord) (version : String) :
    (record.giveUp version known registered).giveUp version more further =
      record.giveUp version (fun set => more (known set))
        (fun versions => further (registered versions)) := by
  have sameDefault (named : Option String) :
      (named.filter (· ≠ version)).filter (· ≠ version) = named.filter (· ≠ version) := by
    simp only [Option.filter_filter, Bool.and_self]
  simp only [giveUp, refresh, liveRoles, dropDefault_eq, sameDefault]

end GiveUp

variable {version other : String}

private theorem retire_comm
    (different : version ≠ other) (record : EntityRecord) (retired also : EntitySchema) :
    (record.retire version retired).retire other also =
      (record.retire other also).retire version retired := by
  simp only [retire_eq_giveUp]
  apply giveUp_comm
  · intro known
    rfl
  · intro versions
    exact versions.insert_comm different retired also

private theorem removeVersion_comm (record : EntityRecord) (version other : String) :
    (record.removeVersion version).removeVersion other =
      (record.removeVersion other).removeVersion version := by
  simp only [removeVersion_eq_giveUp]
  apply giveUp_comm
  · intro known
    exact known.erase_comm version other
  · intro versions
    exact versions.erase_comm version other

private theorem removeVersion_retire_of_ne
    (different : version ≠ other) (record : EntityRecord) (retired : EntitySchema) :
    (record.retire version retired).removeVersion other =
      (record.removeVersion other).retire version retired := by
  simp only [retire_eq_giveUp, removeVersion_eq_giveUp]
  apply giveUp_comm
  · intro known
    rfl
  · intro versions
    exact versions.erase_insert_of_ne different retired

/-- Nothing of the retirement of a version is left once the version is removed. -/
theorem removeVersion_retire_self
    (record : EntityRecord) (version : String) (retired : EntitySchema) :
    (record.retire version retired).removeVersion version = record.removeVersion version := by
  rw [retire_eq_giveUp, removeVersion_eq_giveUp, giveUp_giveUp, removeVersion_eq_giveUp]
  simp only [SortedMap.erase_insert_self, id]

end EntityRecord

namespace Registry

variable {registry : Registry} {name version other : String}
  {schema otherSchema answer otherAnswer : EntitySchema}
  {change otherChange : EntityRecord → EntityRecord}
  {attempted otherAttempted : Attempt Registry MetadataError EntitySchema}

private theorem find?_retire_of_ne
    (record : EntityRecord) (retired : EntitySchema) (different : other ≠ version) :
    (record.retire version retired).versions.find? other = record.versions.find? other := by
  rw [find?_retire, if_neg different]

private theorem find?_removeVersion_of_ne (record : EntityRecord) (different : other ≠ version) :
    (record.removeVersion version).versions.find? other = record.versions.find? other := by
  rw [find?_removeVersion, if_neg different]

/-- Wherever a version of an entity has a certain schema, the attempt succeeds with a certain answer,
and changes the record of the entity in a certain way. -/
def ChangesVersion (name version : String) (schema answer : EntitySchema)
    (change : EntityRecord → EntityRecord)
    (attempted : Attempt Registry MetadataError EntitySchema) : Prop :=
  ∀ registry record,
    registry.entities.find? name = some record → record.versions.find? version = some schema →
      outcome attempted registry = (.ok answer, registry.putOrDrop name (change record))

private theorem changesVersion_retire (name version : String)
    (published : schema.status = .published) :
    ChangesVersion name version schema { schema with status := .retired }
      (·.retire version { schema with status := .retired }) (retire name version) := by
  intro registry record found known
  have moved : schema.moveTo .retired = .ok { schema with status := .retired } :=
    EntitySchema.moveTo_eq_ok_iff.2 ⟨canMoveTo_retired_iff.2 published, rfl⟩
  have stays :
      (record.retire version { schema with status := .retired }).versions.isEmpty = false :=
    SortedMap.isEmpty_insert _ _ _
  simp [outcome_retire, found, known, moved, putOrDrop, stays]

private theorem changesVersion_remove (name version : String) (schema : EntitySchema) :
    ChangesVersion name version schema schema (·.removeVersion version) (remove name version) := by
  intro registry record found known
  simp [outcome_remove, found, known]

/-- After another change the attempt starts from what that has left of the record. -/
theorem ChangesVersion.outcome_putOrDrop
    (changes : ChangesVersion name version schema answer change attempted) (registry : Registry)
    {record : EntityRecord} (known : record.versions.find? version = some schema) :
    outcome attempted (registry.putOrDrop name record) =
      (.ok answer, registry.putOrDrop name (change record)) := by
  have notEmpty : record.versions.isEmpty = false := by
    rw [Bool.eq_false_iff]
    intro empty
    have nothing := SortedMap.isEmpty_iff_find?.1 empty version
    rw [known] at nothing
    cases nothing
  have found : (registry.putOrDrop name record).entities.find? name = some record := by
    rw [find?_putOrDrop, if_pos rfl, notEmpty]
    rfl
  rw [changes _ record found known, putOrDrop_putOrDrop]

/-- Changes of two versions of an entity may change places if those of the record may, and each
leaves the version of the other as it is. -/
theorem ChangesVersion.interchange
    (changes : ChangesVersion name version schema answer change attempted)
    (otherChanges : ChangesVersion name other otherSchema otherAnswer otherChange otherAttempted)
    (leavesOther : ∀ record, (change record).versions.find? other = record.versions.find? other)
    (leavesVersion :
      ∀ record, (otherChange record).versions.find? version = record.versions.find? version)
    (commute : ∀ record, otherChange (change record) = change (otherChange record))
    (known : registry.schema? name version = some schema)
    (otherKnown : registry.schema? name other = some otherSchema) :
    Interchange attempted otherAttempted registry := by
  obtain ⟨record, found, here⟩ := Option.bind_eq_some_iff.1 known
  rw [schema?_of_record found] at otherKnown
  have otherAfter :=
    otherChanges.outcome_putOrDrop registry ((leavesOther record).trans otherKnown)
  have after := changes.outcome_putOrDrop registry ((leavesVersion record).trans here)
  rw [commute] at otherAfter
  exact ⟨answer, otherAnswer, _, _, _, changes registry record found here, otherAfter,
    otherChanges registry record found otherKnown, after⟩

/-- A published version of an entity and another one may be retired, removed, or the one retired and
the other removed, in either order: both succeed, and the registry comes out the same. To retire a
version and to remove it then makes of the registry what removing it alone makes of it. -/
theorem lifecycle_changes_compose
    (known : registry.schema? name version = some schema) (published : schema.status = .published) :
    (∀ other otherSchema,
        other ≠ version →
        registry.schema? name other = some otherSchema → otherSchema.status = .published →
          Interchange (retire name version) (retire name other) registry ∧
            Interchange (remove name version) (remove name other) registry ∧
            Interchange (retire name version) (remove name other) registry) ∧
      ∃ retired removed between later,
        outcome (retire name version) registry = (.ok retired, between) ∧
          outcome (remove name version) between = (.ok retired, later) ∧
          outcome (remove name version) registry = (.ok removed, later) := by
  have retires := changesVersion_retire name version published
  have removes := changesVersion_remove name version schema
  refine ⟨fun other otherSchema different otherKnown otherPublished => ?_, ?_⟩
  · have retiresOther := changesVersion_retire name other otherPublished
    have removesOther := changesVersion_remove name other otherSchema
    have retireLeaves (record : EntityRecord) (retired : EntitySchema) :=
      find?_retire_of_ne record retired different
    have removeLeaves (record : EntityRecord) := find?_removeVersion_of_ne record different
    have otherRetireLeaves (record : EntityRecord) (retired : EntitySchema) :=
      find?_retire_of_ne record retired different.symm
    have otherRemoveLeaves (record : EntityRecord) :=
      find?_removeVersion_of_ne record different.symm
    refine ⟨?_, ?_, ?_⟩
    · exact retires.interchange retiresOther (retireLeaves · _) (otherRetireLeaves · _)
        (EntityRecord.retire_comm different.symm · _ _) known otherKnown
    · exact removes.interchange removesOther removeLeaves otherRemoveLeaves
        (EntityRecord.removeVersion_comm · version other) known otherKnown
    · exact retires.interchange removesOther (retireLeaves · _) otherRemoveLeaves
        (EntityRecord.removeVersion_retire_of_ne different.symm · _) known otherKnown
  · obtain ⟨record, found, here⟩ := Option.bind_eq_some_iff.1 known
    let retired : EntitySchema := { schema with status := .retired }
    have isRetired : (record.retire version retired).versions.find? version = some retired := by
      rw [find?_retire, if_pos rfl]
    have removed :=
      (changesVersion_remove name version retired).outcome_putOrDrop registry isRetired
    rw [EntityRecord.removeVersion_retire_self] at removed
    exact ⟨retired, schema, _, _, retires registry record found here, removed,
      removes registry record found here⟩

/-- Of two versions the one is retired or removed, and the other removed. The first of them is the
default, which the second has named. -/
theorem order_versions_given_up :
    let first := (orderVersion "1.0.0" none).schema
    let second := (orderVersion "1.1.0" (some "1.0.0")).schema
    let registry := ((Session.start .standard Config.standard.judge).run [
      .register (orderVersion "1.0.0" none),
      .register (orderVersion "1.1.0" (some "1.0.0"))]).registry
    registry.schema? "Order" "1.0.0" = some { first with status := .published } ∧
      registry.schema? "Order" "1.1.0" = some { second with status := .published } ∧
      Interchange (retire "Order" "1.0.0") (remove "Order" "1.1.0") registry ∧
      (outcome (remove "Order" "1.0.0") (outcome (retire "Order" "1.0.0") registry).2).2 =
        (outcome (remove "Order" "1.0.0") registry).2 := by
  intro first second registry
  have known : registry.schema? "Order" "1.0.0" = some { first with status := .published } := rfl
  have otherKnown :
      registry.schema? "Order" "1.1.0" = some { second with status := .published } := rfl
  obtain ⟨anyOrder, _, _, _, _, retired, thenRemoved, removed⟩ :=
    lifecycle_changes_compose known rfl
  have interchange := (anyOrder "1.1.0" _ (by decide) otherKnown rfl).2.2
  refine ⟨known, otherKnown, interchange, ?_⟩
  rw [retired, thenRemoved, removed]

end Registry
end Schemata

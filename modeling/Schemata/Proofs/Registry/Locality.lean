import Schemata.Proofs.Registry.Run

/-!
# Operations on one entity

An operation on a registry concerns one entity. It reads nothing that is registered under other
names, and leaves all of that as it is, so that operations on different entities may change places.
-/
namespace Schemata.Registry

open Attempt

variable {name other : String} {left right registry : Registry} {α β : Type}

/-- Two registries have the same record of an entity or both none, the same judge of data stores
and the same settings. -/
structure AgreeOn (name : String) (left right : Registry) : Prop where
  record : left.entities.find? name = right.entities.find? name
  judge : left.judge = right.judge
  config : left.config = right.config

namespace AgreeOn

theorem refl (name : String) (registry : Registry) : AgreeOn name registry registry :=
  ⟨rfl, rfl, rfl⟩

theorem symm (agree : AgreeOn name left right) : AgreeOn name right left :=
  ⟨agree.record.symm, agree.judge.symm, agree.config.symm⟩

theorem trans {last : Registry} (first : AgreeOn name left right)
    (second : AgreeOn name right last) : AgreeOn name left last :=
  ⟨first.record.trans second.record, first.judge.trans second.judge,
    first.config.trans second.config⟩

private theorem hasVersion_eq (agree : AgreeOn name left right) (version : String) :
    left.hasVersion name version = right.hasVersion name version := by
  rw [hasVersion, agree.record, ← hasVersion]

private theorem isLive_eq (agree : AgreeOn name left right) (version : String) :
    left.isLive name version = right.isLive name version := by
  rw [isLive, agree.record, ← isLive]

theorem info_eq (agree : AgreeOn name left right) : left.info name = right.info name := by
  rw [info, Registry.record, agree.record, ← Registry.record, ← info]

theorem versions_eq (agree : AgreeOn name left right) :
    left.versions name = right.versions name := by
  rw [versions, Registry.record, agree.record, ← Registry.record, ← versions]

theorem resolve_eq (agree : AgreeOn name left right) (version : Option String) :
    left.resolve name version = right.resolve name version := by
  rw [resolve, Registry.record, agree.record, ← Registry.record, ← resolve]

theorem describe_eq (agree : AgreeOn name left right) (version : Option String) :
    left.describe name version = right.describe name version := by
  rw [describe, agree.resolve_eq, agree.config, ← describe]

theorem validate_eq {submitted : EntityMetadata}
    (agree : AgreeOn submitted.info.name left right) :
    left.validate submitted = right.validate submitted := by
  have sameCatalog (version : String) :
      left.catalogFor submitted submitted.info.name version =
        right.catalogFor submitted submitted.info.name version := by
    simp only [catalogFor, agree.isLive_eq]
  rw [validate, validate, agree.hasVersion_eq, agree.judge,
    ValidatedMetadata.of_congr sameCatalog]

private theorem publishedRecord_eq {submitted : EntityMetadata}
    (agree : AgreeOn submitted.info.name left right) (schema : EntitySchema) :
    left.publishedRecord submitted schema = right.publishedRecord submitted schema := by
  rw [publishedRecord, recordFor, addVersion_name, agree.record, publishedRecord, recordFor,
    addVersion_name]

theorem putRecord (agree : AgreeOn name left right) (record : EntityRecord) :
    AgreeOn name (left.putRecord name record) (right.putRecord name record) where
  record := by rw [find?_putRecord, find?_putRecord, if_pos rfl, if_pos rfl]
  judge := agree.judge
  config := agree.config

theorem putOrDrop (agree : AgreeOn name left right) (record : EntityRecord) :
    AgreeOn name (left.putOrDrop name record) (right.putOrDrop name record) where
  record := by rw [find?_putOrDrop, find?_putOrDrop, if_pos rfl, if_pos rfl]
  judge := by rw [judge_putOrDrop, judge_putOrDrop, agree.judge]
  config := by rw [config_putOrDrop, config_putOrDrop, agree.config]

end AgreeOn

private theorem agreeOn_putRecord_of_ne (different : other ≠ name) (registry : Registry)
    (record : EntityRecord) :
    AgreeOn other registry (registry.putRecord name record) where
  record := by rw [find?_putRecord, if_neg different]
  judge := rfl
  config := rfl

private theorem agreeOn_putOrDrop_of_ne (different : other ≠ name) (registry : Registry)
    (record : EntityRecord) :
    AgreeOn other registry (registry.putOrDrop name record) where
  record := by rw [find?_putOrDrop, if_neg different]
  judge := (judge_putOrDrop registry name record).symm
  config := (config_putOrDrop registry name record).symm

private theorem eq_of_agreeOn (agree : ∀ name, AgreeOn name left right) : left = right := by
  obtain ⟨leftEntities, leftJudge, leftConfig⟩ := left
  obtain ⟨rightEntities, rightJudge, rightConfig⟩ := right
  have sameEntities : leftEntities = rightEntities :=
    SortedMap.ext_find? fun name => (agree name).record
  have sameJudge : leftJudge = rightJudge := (agree "").judge
  have sameConfig : leftConfig = rightConfig := (agree "").config
  rw [sameEntities, sameJudge, sameConfig]

/-- Of two records that are put under one name the later one stays. -/
theorem putRecord_putRecord
    (registry : Registry) (name : String) (record later : EntityRecord) :
    (registry.putRecord name record).putRecord name later = registry.putRecord name later := by
  apply eq_of_agreeOn
  intro entity
  refine ⟨?_, rfl, rfl⟩
  simp only [find?_putRecord]
  by_cases here : entity = name <;> simp [here]

theorem putOrDrop_putOrDrop
    (registry : Registry) (name : String) (record later : EntityRecord) :
    (registry.putOrDrop name record).putOrDrop name later = registry.putOrDrop name later := by
  apply eq_of_agreeOn
  intro entity
  refine ⟨?_, by simp, by simp⟩
  simp only [find?_putOrDrop]
  by_cases here : entity = name <;> simp [here]

/-- What an attempt answers, and what it makes of an entity, depend on nothing but what is
registered of that entity, and all other entities stay as they are. -/
structure Concerns (name : String) (attempted : Attempt Registry MetadataError α) : Prop where
  alike : ∀ {left right}, AgreeOn name left right →
    (outcome attempted left).1 = (outcome attempted right).1 ∧
      AgreeOn name (outcome attempted left).2 (outcome attempted right).2
  others : ∀ {other}, other ≠ name → ∀ registry,
    AgreeOn other registry (outcome attempted registry).2

namespace Concerns

theorem map {attempted : Attempt Registry MetadataError α} (concerns : Concerns name attempted)
    (change : α → β) : Concerns name (change <$> attempted) := by
  refine ⟨fun agree => ?_, fun different registry => ?_⟩
  · obtain ⟨sameAnswer, later⟩ := concerns.alike agree
    rw [outcome_map_eq, outcome_map_eq, sameAnswer]
    exact ⟨rfl, later⟩
  · rw [outcome_map_eq]
    exact concerns.others different registry

/-- Attempts that concern different entities may change places: each answers what it would have
answered first, and together they come to the same. -/
theorem commute
    {first : Attempt Registry MetadataError α} {second : Attempt Registry MetadataError β}
    (ofFirst : Concerns name first) (ofSecond : Concerns other second)
    (different : name ≠ other) (registry : Registry) :
    (outcome second (outcome first registry).2).1 = (outcome second registry).1 ∧
      (outcome first (outcome second registry).2).1 = (outcome first registry).1 ∧
      (outcome second (outcome first registry).2).2 =
        (outcome first (outcome second registry).2).2 := by
  have seenBySecond : AgreeOn other registry (outcome first registry).2 :=
    ofFirst.others (Ne.symm different) registry
  have seenByFirst : AgreeOn name registry (outcome second registry).2 :=
    ofSecond.others different registry
  obtain ⟨sameSecond, secondAfter⟩ := ofSecond.alike seenBySecond
  obtain ⟨sameFirst, firstAfter⟩ := ofFirst.alike seenByFirst
  refine ⟨sameSecond.symm, sameFirst.symm, ?_⟩
  apply eq_of_agreeOn
  intro entity
  by_cases isFirst : entity = name
  · subst isFirst
    have kept := ofSecond.others different (outcome first registry).2
    exact kept.symm.trans firstAfter
  · have kept := ofFirst.others isFirst (outcome second registry).2
    by_cases isSecond : entity = other
    · subst isSecond
      exact secondAfter.symm.trans kept
    · have afterFirst := ofFirst.others isFirst registry
      have afterBoth := ofSecond.others isSecond (outcome first registry).2
      have afterSecond := ofSecond.others isSecond registry
      exact (afterFirst.trans afterBoth).symm.trans (afterSecond.trans kept)

end Concerns

private theorem outcome_publish (registry : Registry) (validated : ValidatedMetadata) :
    outcome (publish validated) registry =
      if registry.hasVersion validated.metadata.info.name validated.metadata.version then
        (.error (.duplicateVersion validated.metadata.info.name validated.metadata.version),
          registry)
      else
        match validated.metadata.schema.moveTo .published with
        | .error move => (.error (.transition move), registry)
        | .ok schema =>
            (.ok schema,
              registry.putRecord validated.metadata.info.name
                (registry.publishedRecord validated.metadata schema)) := by
  rcases publish_cases registry validated with
    ⟨known, ended⟩ | ⟨move, fresh, refused, ended⟩ | ⟨schema, fresh, published, ended⟩
  · rw [ended, if_pos known]
  · rw [ended, if_neg (Bool.eq_false_iff.1 fresh), refused]
  · rw [ended, if_neg (Bool.eq_false_iff.1 fresh), published]

theorem outcome_setDefault (registry : Registry) (name version : String) :
    outcome (setDefault name version) registry =
      match registry.entities.find? name with
      | none => (.error (.entityNotFound name), registry)
      | some record =>
          if record.isLive version then
            (.ok ⟨⟩,
              registry.putRecord name { record with info := record.info.withDefault version })
          else (.error (.invalidDefaultVersion name version), registry) := by
  rcases setDefault_cases registry name version with
    ⟨missing, ended⟩ | ⟨record, found, dead, ended⟩ | ⟨record, found, live, ended⟩
  · simp [ended, missing]
  · simp [ended, found, dead]
  · simp [ended, found, live]

theorem outcome_retire (registry : Registry) (name version : String) :
    outcome (retire name version) registry =
      match registry.entities.find? name with
      | none => (.error (.entityNotFound name), registry)
      | some record =>
          match record.versions.find? version with
          | none => (.error (.versionNotFound name version), registry)
          | some schema =>
              match schema.moveTo .retired with
              | .error move => (.error (.transition move), registry)
              | .ok retired =>
                  (.ok retired, registry.putRecord name (record.retire version retired)) := by
  rcases retire_cases registry name version with
    ⟨missing, ended⟩ | ⟨record, found, unknown, ended⟩ |
      ⟨record, schema, move, found, known, refused, ended⟩ |
      ⟨record, schema, retired, found, known, moved, ended⟩
  · simp [ended, missing]
  · simp [ended, found, unknown]
  · simp [ended, found, known, refused]
  · simp [ended, found, known, moved]

theorem outcome_remove (registry : Registry) (name version : String) :
    outcome (remove name version) registry =
      match registry.entities.find? name with
      | none => (.error (.entityNotFound name), registry)
      | some record =>
          match record.versions.find? version with
          | none => (.error (.versionNotFound name version), registry)
          | some schema =>
              (.ok schema, registry.putOrDrop name (record.removeVersion version)) := by
  rcases remove_cases registry name version with
    ⟨missing, ended⟩ | ⟨record, found, unknown, ended⟩ | ⟨record, schema, found, known, ended⟩
  · simp [ended, missing]
  · simp [ended, found, unknown]
  · simp [ended, found, known]

theorem concerns_publish (validated : ValidatedMetadata) :
    Concerns validated.metadata.info.name (publish validated) := by
  refine ⟨fun agree => ?_, fun different registry => ?_⟩
  · rw [outcome_publish, outcome_publish, agree.hasVersion_eq]
    split
    · exact ⟨rfl, agree⟩
    · cases validated.metadata.schema.moveTo .published with
      | error move => exact ⟨rfl, agree⟩
      | ok schema =>
          dsimp only
          rw [agree.publishedRecord_eq schema]
          exact ⟨rfl, agree.putRecord _⟩
  · rw [outcome_publish]
    split
    · exact .refl _ _
    · cases validated.metadata.schema.moveTo .published with
      | error move => exact .refl _ _
      | ok schema => exact agreeOn_putRecord_of_ne different registry _

theorem concerns_validate (submitted : EntityMetadata) :
    Concerns submitted.info.name (look fun registry => registry.validate submitted) :=
  ⟨fun agree => ⟨agree.validate_eq, agree⟩, fun _ registry => .refl _ registry⟩

theorem concerns_register (submitted : EntityMetadata) :
    Concerns submitted.info.name (register submitted) := by
  have publishes (registry : Registry) (validated : ValidatedMetadata)
      (passed : registry.validate submitted = .ok validated) :
      Concerns submitted.info.name (publish validated) := by
    have concerns := concerns_publish validated
    rwa [(acceptable_of_validate passed).2] at concerns
  refine ⟨fun {left right} agree => ?_, fun different registry => ?_⟩
  · rw [outcome_register, outcome_register, agree.validate_eq]
    cases passed : right.validate submitted with
    | error error => exact ⟨rfl, agree⟩
    | ok validated => exact (publishes right validated passed).alike agree
  · rw [outcome_register]
    cases passed : registry.validate submitted with
    | error error => exact .refl _ registry
    | ok validated => exact (publishes registry validated passed).others different registry

theorem concerns_setDefault (name version : String) :
    Concerns name (setDefault name version) := by
  refine ⟨fun {left right} agree => ?_, fun different registry => ?_⟩
  · rw [outcome_setDefault, outcome_setDefault, agree.record]
    cases right.entities.find? name with
    | none => exact ⟨rfl, agree⟩
    | some record =>
        dsimp only
        split
        · exact ⟨rfl, agree.putRecord _⟩
        · exact ⟨rfl, agree⟩
  · rw [outcome_setDefault]
    cases registry.entities.find? name with
    | none => exact .refl _ registry
    | some record =>
        dsimp only
        split
        · exact agreeOn_putRecord_of_ne different registry _
        · exact .refl _ registry

theorem concerns_retire (name version : String) :
    Concerns name (retire name version) := by
  refine ⟨fun {left right} agree => ?_, fun different registry => ?_⟩
  · rw [outcome_retire, outcome_retire, agree.record]
    cases right.entities.find? name with
    | none => exact ⟨rfl, agree⟩
    | some record =>
        dsimp only
        split
        · exact ⟨rfl, agree⟩
        · split
          · exact ⟨rfl, agree⟩
          · exact ⟨rfl, agree.putRecord _⟩
  · rw [outcome_retire]
    cases registry.entities.find? name with
    | none => exact .refl _ registry
    | some record =>
        dsimp only
        split
        · exact .refl _ registry
        · split
          · exact .refl _ registry
          · exact agreeOn_putRecord_of_ne different registry _

theorem concerns_remove (name version : String) :
    Concerns name (remove name version) := by
  refine ⟨fun {left right} agree => ?_, fun different registry => ?_⟩
  · rw [outcome_remove, outcome_remove, agree.record]
    cases right.entities.find? name with
    | none => exact ⟨rfl, agree⟩
    | some record =>
        dsimp only
        split
        · exact ⟨rfl, agree⟩
        · exact ⟨rfl, agree.putOrDrop _⟩
  · rw [outcome_remove]
    cases registry.entities.find? name with
    | none => exact .refl _ registry
    | some record =>
        dsimp only
        split
        · exact .refl _ registry
        · exact agreeOn_putOrDrop_of_ne different registry _

end Schemata.Registry

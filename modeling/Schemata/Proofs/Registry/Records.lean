import Schemata.Proofs.Registry.History

/-!
# Records of a registry

What the record of every entity looks like in every registry that operations lead to: where it is
stored, what its versions are, and that its data store is accepted. An entity has versions as long
as it is there, and once the last one is removed nothing finds the entity any more.
-/
namespace Schemata.Registry

open Attempt

variable {registry later : Registry} {name version : String} {record : EntityRecord}
  {event : Option Event}

/-- Something holds of every entity's record, under the entity's name. -/
def EachRecord (holds : String → EntityRecord → Prop) (registry : Registry) : Prop :=
  ∀ name record, registry.entities.find? name = some record → holds name record

theorem eachRecord_empty
    (holds : String → EntityRecord → Prop) (config : Config) (judge : DataStoreJudge) :
    EachRecord holds (empty config judge) := by
  intro name record found
  simp [empty] at found

/-- After a record is put, what holds of it has to hold of the other entities' records only. -/
theorem eachRecord_putRecord
    {holds : String → EntityRecord → Prop}
    (others :
      ∀ other found, other ≠ name → registry.entities.find? other = some found →
        holds other found)
    (here : holds name record) :
    EachRecord holds (registry.putRecord name record) := by
  intro other found foundHere
  rw [find?_putRecord] at foundHere
  split at foundHere
  · next sameName =>
      cases foundHere
      rw [sameName]
      exact here
  · next different => exact others other found different foundHere

theorem EachRecord.putRecord
    {holds : String → EntityRecord → Prop} (each : EachRecord holds registry)
    (here : holds name record) :
    EachRecord holds (registry.putRecord name record) :=
  eachRecord_putRecord (fun other found _ => each other found) here

theorem EachRecord.putOrDrop
    {holds : String → EntityRecord → Prop} (each : EachRecord holds registry)
    (here : record.versions.isEmpty = false → holds name record) :
    EachRecord holds (registry.putOrDrop name record) := by
  intro other found foundHere
  rw [find?_putOrDrop] at foundHere
  split at foundHere
  · next sameName =>
      cases empty : record.versions.isEmpty with
      | true => simp [empty] at foundHere
      | false =>
          have same : record = found := by simpa [empty] using foundHere
          rw [sameName, ← same]
          exact here empty
  · exact each other found foundHere

@[simp]
theorem dropDefault_name (version : String) (info : EntityInfo) :
    (EntityRecord.dropDefault version info).name = info.name := by
  unfold EntityRecord.dropDefault
  split <;> rfl

@[simp]
theorem dropDefault_versions (version : String) (info : EntityInfo) :
    (EntityRecord.dropDefault version info).versions = info.versions := by
  unfold EntityRecord.dropDefault
  split <;> rfl

@[simp]
theorem dropDefault_dataStore (version : String) (info : EntityInfo) :
    (EntityRecord.dropDefault version info).dataStore = info.dataStore := by
  unfold EntityRecord.dropDefault
  split <;> rfl

private theorem hasVersion_retire
    (record : EntityRecord) (version other : String) (retired : EntitySchema) :
    (record.retire version retired).info.hasVersion other = record.info.hasVersion other :=
  congrArg (SortedMap.contains · other) (dropDefault_versions version record.info)

private theorem hasVersion_removeVersion (record : EntityRecord) (version other : String) :
    (record.removeVersion version).info.hasVersion other =
      if other = version then false else record.info.hasVersion other := by
  show (EntityRecord.dropDefault version
    { record.info with versions := record.info.versions.erase version }).versions.contains other = _
  rw [dropDefault_versions, SortedMap.contains, SortedMap.find?_erase]
  split <;> rfl

theorem publishedRecord_name
    (each : EachRecord (fun name record => record.info.name = name) registry)
    (submitted : EntityMetadata) (schema : EntitySchema) :
    (registry.publishedRecord submitted schema).info.name = submitted.info.name := by
  unfold publishedRecord recordFor
  rw [addVersion_name]
  cases found : registry.entities.find? submitted.info.name with
  | none => rfl
  | some record => exact each submitted.info.name record found

/-- A published record knows its new version besides those from before. -/
theorem publishedRecord_hasVersion
    (registry : Registry) (submitted : EntityMetadata) (schema : EntitySchema)
    {version : String}
    (known :
      version = submitted.version ∨
        ∃ record,
          registry.entities.find? submitted.info.name = some record ∧
            record.info.hasVersion version = true) :
    (registry.publishedRecord submitted schema).info.hasVersion version = true := by
  have own (isNew : version = submitted.version) :
      (submitted.info.addVersion submitted.version).versions.contains version = true :=
    (SortedMap.contains_insert submitted.info.versions ()).2 (Or.inl isNew)
  unfold publishedRecord recordFor
  rw [addVersion_name]
  cases found : registry.entities.find? submitted.info.name with
  | none =>
      rcases known with isNew | ⟨record, foundHere, _⟩
      · exact own isNew
      · rw [found] at foundHere
        cases foundHere
  | some record =>
      apply TextSet.contains_union.2
      rcases known with isNew | ⟨other, foundHere, listed⟩
      · exact Or.inr (own isNew)
      · rw [found] at foundHere
        cases foundHere
        exact Or.inl listed

private theorem publishedRecord_dataStore
    (registry : Registry) (submitted : EntityMetadata) (schema : EntitySchema) :
    (registry.publishedRecord submitted schema).info.dataStore = submitted.info.dataStore := by
  unfold publishedRecord recordFor
  rw [addVersion_name]
  cases registry.entities.find? submitted.info.name <;> rfl

/-- A schema as it is registered under a version of an entity. -/
structure Registered (name version : String) (schema : EntitySchema) : Prop where
  underName : schema.name = name
  underNumber : schema.version.number = version
  numbered : Metadata.checkVersion schema.version = .ok schema.version
  hasFields : schema.fields.isEmpty = false
  outThere : schema.status = .published ∨ schema.status = .retired

/-- A record as it is stored under the name of its entity. -/
structure SoundRecord (name : String) (record : EntityRecord) : Prop where
  underName : record.info.name = name
  named : name ≠ ""
  hasVersions : record.versions.isEmpty = false
  registered :
    ∀ version schema, record.versions.find? version = some schema →
      Registered name version schema
  listed :
    ∀ version, record.versions.contains version = true →
      record.info.hasVersion version = true

theorem Registered.retire {schema : EntitySchema} (registered : Registered name version schema) :
    Registered name version { schema with status := .retired } where
  underName := registered.underName
  underNumber := registered.underNumber
  numbered := registered.numbered
  hasFields := registered.hasFields
  outThere := Or.inr rfl

private theorem registered_of_acceptable
    {catalog : VersionCatalog} {judge : DataStoreJudge} {submitted : EntityMetadata}
    (acceptable : Metadata.Acceptable catalog judge submitted) :
    Registered submitted.info.name submitted.version
      { submitted.schema with status := .published } where
  underName := acceptable.namesAgree
  underNumber := rfl
  numbered := Metadata.checkVersion_eq_ok_iff.2 ⟨acceptable.numbered, rfl⟩
  hasFields := acceptable.hasFields
  outThere := Or.inl rfl

theorem SoundRecord.publish
    {catalog : VersionCatalog} {submitted : EntityMetadata} {schema : EntitySchema}
    (each : EachRecord SoundRecord registry)
    (acceptable : Metadata.Acceptable catalog registry.judge submitted)
    (published : schema = { submitted.schema with status := .published }) :
    SoundRecord submitted.info.name (registry.publishedRecord submitted schema) := by
  have sameNumber : schema.version.number = submitted.version := by
    rw [published]
    rfl
  have lookup (version : String) :=
    publishedRecord_find? registry submitted schema version
  simp only [sameNumber] at lookup
  refine ⟨?_, acceptable.named, ?_, ?_, ?_⟩
  · exact publishedRecord_name (fun name record found => (each name record found).underName)
      submitted schema
  · exact SortedMap.isEmpty_insert _ _ _
  · intro version other known
    rw [lookup] at known
    split at known
    · next isNew =>
        cases known
        rw [isNew, published]
        exact registered_of_acceptable acceptable
    · obtain ⟨record, found, knownBefore⟩ := Option.bind_eq_some_iff.1 known
      exact (each submitted.info.name record found).registered version other knownBefore
  · intro version there
    apply publishedRecord_hasVersion
    obtain ⟨other, known⟩ := Option.isSome_iff_exists.1 there
    rw [lookup] at known
    split at known
    · next isNew => exact Or.inl isNew
    · obtain ⟨record, found, knownBefore⟩ := Option.bind_eq_some_iff.1 known
      have contained : record.versions.contains version = true :=
        Option.isSome_iff_exists.2 ⟨other, knownBefore⟩
      exact Or.inr ⟨record, found,
        (each submitted.info.name record found).listed version contained⟩

theorem SoundRecord.retire
    {schema : EntitySchema} (sound : SoundRecord name record)
    (known : record.versions.find? version = some schema) :
    SoundRecord name (record.retire version { schema with status := .retired }) := by
  refine ⟨?_, sound.named, ?_, ?_, ?_⟩
  · exact (dropDefault_name version record.info).trans sound.underName
  · exact SortedMap.isEmpty_insert _ _ _
  · intro other found foundHere
    rw [find?_retire] at foundHere
    split at foundHere
    · next same =>
        cases foundHere
        rw [same]
        exact (sound.registered version schema known).retire
    · exact sound.registered other found foundHere
  · intro other there
    have contained : record.versions.contains other = true := by
      unfold SortedMap.contains at there ⊢
      rw [find?_retire] at there
      split at there
      · next same =>
          rw [same, known]
          rfl
      · exact there
    rw [hasVersion_retire]
    exact sound.listed other contained

theorem SoundRecord.removeVersion
    (sound : SoundRecord name record)
    (notLast : (record.removeVersion version).versions.isEmpty = false) :
    SoundRecord name (record.removeVersion version) := by
  refine ⟨?_, sound.named, notLast, ?_, ?_⟩
  · exact (dropDefault_name version _).trans sound.underName
  · intro other found foundHere
    rw [find?_removeVersion] at foundHere
    split at foundHere
    · cases foundHere
    · exact sound.registered other found foundHere
  · intro other there
    unfold SortedMap.contains at there
    rw [find?_removeVersion] at there
    rw [hasVersion_removeVersion]
    split at there
    · cases there
    · next different =>
        rw [if_neg different]
        exact sound.listed other there

theorem SoundRecord.transition
    (each : EachRecord SoundRecord registry)
    (transition : Transition registry event later) :
    EachRecord SoundRecord later := by
  cases transition with
  | still => exact each
  | publish submitted accepted fresh schema published =>
      obtain ⟨catalog, acceptable⟩ := accepted
      exact each.putRecord (SoundRecord.publish each acceptable published)
  | choose name version record found live =>
      have sound := each name record found
      exact each.putRecord
        ⟨sound.underName, sound.named, sound.hasVersions, sound.registered, sound.listed⟩
  | retire name version record schema found known published =>
      exact each.putRecord ((each name record found).retire known)
  | remove name version record schema found known =>
      exact each.putOrDrop (each name record found).removeVersion

/-- A judge that looks at nothing but the data store. -/
def JudgesStore (judge : DataStoreJudge) : Prop :=
  ∀ left right : EntityInfo, left.dataStore = right.dataStore → judge left = judge right

theorem judgesStore_acceptBackends (accepted : TextSet) :
    JudgesStore (acceptBackends accepted) := by
  intro left right same
  simp [acceptBackends, same]

private theorem storeAccepted_transition
    {judge : DataStoreJudge} (judgesStore : JudgesStore judge)
    (sameJudge : registry.judge = judge)
    (each : EachRecord (fun _ record => judge record.info = .ok ()) registry)
    (transition : Transition registry event later) :
    EachRecord (fun _ record => judge record.info = .ok ()) later := by
  have kept (before after : EntityInfo) (same : after.dataStore = before.dataStore)
      (accepted : judge before = .ok ()) : judge after = .ok () :=
    (judgesStore after before same).trans accepted
  cases transition with
  | still => exact each
  | publish submitted accepted fresh schema published =>
      obtain ⟨catalog, acceptable⟩ := accepted
      have stored : judge submitted.info = .ok () := sameJudge ▸ acceptable.stored
      have sameStore := publishedRecord_dataStore registry submitted schema
      exact each.putRecord (kept submitted.info _ sameStore stored)
  | choose name version record found live =>
      exact each.putRecord (kept record.info _ rfl (each name record found))
  | retire name version record schema found known published =>
      have sameStore := dropDefault_dataStore version record.info
      exact each.putRecord (kept record.info _ sameStore (each name record found))
  | remove name version record schema found known =>
      have sameStore := dropDefault_dataStore version
        { record.info with versions := record.info.versions.erase version }
      exact each.putOrDrop fun _ => kept record.info _ sameStore (each name record found)

/-- No question about an entity finds it. -/
structure Gone (registry : Registry) (name : String) : Prop where
  names : name ∉ registry.names
  info : registry.info name = .error (.entityNotFound name)
  versions : registry.versions name = .error (.entityNotFound name)
  hasVersion : ∀ version, registry.hasVersion name version = false
  resolve : ∀ version, registry.resolve name version = .error (.entityNotFound name)
  describe : ∀ version, registry.describe name version = .error (.entityNotFound name)

private theorem gone_of_find? (missing : registry.entities.find? name = none) :
    registry.Gone name := by
  have noRecord : registry.record name = .error (.entityNotFound name) := by
    rw [record_eq, missing]
  have noSchema (version : Option String) :
      registry.resolve name version = .error (.entityNotFound name) := by
    rw [Registry.resolve, noRecord]
    rfl
  refine ⟨SortedMap.find?_eq_none_iff.1 missing, ?_, ?_, ?_, noSchema, ?_⟩
  · rw [Registry.info, noRecord]
    rfl
  · rw [Registry.versions, noRecord]
    rfl
  · intro version
    rw [Registry.hasVersion, missing]
    rfl
  · intro version
    rw [Registry.describe, noSchema]
    rfl

/-- Removing the only version of an entity succeeds, and the entity is gone. -/
theorem remove_last_version
    (only : ∀ other, registry.hasVersion name other = true ↔ other = version) :
    ∃ schema,
      (outcome (remove name version) registry).1 = .ok schema ∧
        (outcome (remove name version) registry).2.Gone name := by
  have there := (only version).2 rfl
  rw [hasVersion_eq_isSome] at there
  obtain ⟨schema, known⟩ := Option.isSome_iff_exists.1 there
  obtain ⟨record, found, here⟩ := Option.bind_eq_some_iff.1 known
  have nothingLeft : (record.removeVersion version).versions.isEmpty = true := by
    apply SortedMap.isEmpty_iff_find?.2
    intro other
    rw [find?_removeVersion]
    split
    · rfl
    · next different =>
        have absent : registry.hasVersion name other ≠ true := by
          intro present
          exact different ((only other).1 present)
        rw [hasVersion_eq_isSome, schema?_of_record found] at absent
        simpa using absent
  rcases remove_cases registry name version with
    ⟨missing, _⟩ | ⟨other, foundHere, missing, _⟩ | ⟨other, removed, foundHere, _, ended⟩
  · rw [found] at missing
    cases missing
  · rw [found] at foundHere
    cases foundHere
    rw [here] at missing
    cases missing
  · rw [found] at foundHere
    cases foundHere
    rw [ended]
    refine ⟨removed, rfl, gone_of_find? ?_⟩
    rw [find?_putOrDrop, if_pos rfl, if_pos nothingLeft]

/-- All records are sound and have data stores that the judge of the registry accepts. -/
structure SoundUnder (judge : DataStoreJudge) (registry : Registry) : Prop where
  sameJudge : registry.judge = judge
  records : EachRecord SoundRecord registry
  stored : EachRecord (fun _ record => judge record.info = .ok ()) registry

theorem SoundUnder.transition
    {judge : DataStoreJudge} (judgesStore : JudgesStore judge)
    (sound : SoundUnder judge registry)
    (transition : Transition registry event later) :
    SoundUnder judge later where
  sameJudge := transition.judge_eq.trans sound.sameJudge
  records := SoundRecord.transition sound.records transition
  stored := storeAccepted_transition judgesStore sound.sameJudge sound.stored transition

/-- In every registry that accepts a set of backends, whatever operations have led to it, every
record is sound and its data store is accepted, and removing the only version of an entity leaves
nothing of the entity. -/
theorem records_sound_throughout
    (config : Config) (accepted : TextSet) (actions : List Action) :
    let registry := ((Session.start config (acceptBackends accepted)).run actions).registry
    (∀ name record, registry.entities.find? name = some record →
      SoundRecord name record ∧ registry.judge record.info = .ok () ∧
        accepted.contains record.info.dataStore.backend = true) ∧
      ∀ name version,
        (∀ other, registry.hasVersion name other = true ↔ other = version) →
          ∃ schema,
            (outcome (remove name version) registry).1 = .ok schema ∧
              (outcome (remove name version) registry).2.Gone name := by
  intro registry
  let judge := acceptBackends accepted
  have atStart : SoundUnder judge (empty config judge) :=
    ⟨rfl, eachRecord_empty _ config judge, eachRecord_empty _ config judge⟩
  have sound := @Session.run_invariant (fun registry _ => SoundUnder judge registry)
    (fun _ _ _ _ before happened =>
      SoundUnder.transition (judgesStore_acceptBackends accepted) before happened)
    _ (Session.vetted_start config judge) [] atStart actions
  refine ⟨fun name record found => ?_, fun name version only => remove_last_version only⟩
  have passed := sound.stored name record found
  have contained := (acceptBackends_eq_ok_iff.1 passed).2
  rw [sound.sameJudge]
  exact ⟨sound.records name record found, passed, contained⟩

/-- A version of an entity that readers may find, as they may a field of it. They may also find an
archive, by a role declared with it. -/
def sharedOrder (number : String) (defaultVersion : Option String) : EntityMetadata :=
  let order := orderVersion number defaultVersion
  { info := { order.info with roles := RoleMap.empty.addPath "reader" .find "Archive" }
    schema := { order.schema with
      fields := order.schema.fields.grant 1 .find ["reader"]
      access := Access.grant ∅ .find ["reader"] } }

/-- The second version of the entity becomes its default, and the first one is retired. -/
def secondOrderChosen : List Action :=
  [.register (sharedOrder "1.0.0" none), .register (sharedOrder "1.1.0" (some "1.1.0")),
    .retire "Order" "1.0.0"]

def secondOrderRegistry : Registry :=
  ((Session.start .standard Config.standard.judge).run secondOrderChosen).registry

theorem exists_secondOrder_record :
    ∃ record, secondOrderRegistry.entities.find? "Order" = some record ∧
      record.info.defaultVersion = some "1.1.0" ∧
      record.statuses = [("1.0.0", .retired), ("1.1.0", .published)] := by
  have recorded :
      (secondOrderRegistry.entities.find? "Order").map
          (fun record => (record.info.defaultVersion, record.statuses)) =
        some (some "1.1.0", [("1.0.0", .retired), ("1.1.0", .published)]) := by
    decide +kernel
  obtain ⟨record, found, facts⟩ := Option.map_eq_some_iff.1 recorded
  exact ⟨record, found, Prod.mk.inj facts⟩

theorem secondOrder_record_sound :
    ∃ record, secondOrderRegistry.entities.find? "Order" = some record ∧
      record.info.defaultVersion = some "1.1.0" ∧
      record.statuses = [("1.0.0", .retired), ("1.1.0", .published)] ∧
      SoundRecord "Order" record ∧ secondOrderRegistry.judge record.info = .ok () := by
  obtain ⟨record, found, isDefault, statuses⟩ := exists_secondOrder_record
  obtain ⟨sound, judged, _⟩ :=
    (records_sound_throughout .standard (.ofTexts Config.standard.acceptedBackends)
      secondOrderChosen).1 "Order" record found
  exact ⟨record, found, isDefault, statuses, sound, judged⟩

end Schemata.Registry

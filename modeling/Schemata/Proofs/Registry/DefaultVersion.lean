import Mathlib.Data.List.Infix
import Mathlib.Data.List.Induction
import Schemata.Proofs.Registry.Run

/-!
# Default versions

When the default version of every entity is one of its versions that is not retired. Every
operation but a publication keeps it so. A publication checks nothing about the default that its
submission names: that was done when the submission was validated, and the version may have been
retired or removed since.
-/
namespace Schemata.Registry

open Attempt

/-- The default version of a record, if there is one, is registered and not retired. -/
def DefaultLive (record : EntityRecord) : Prop :=
  ∀ version, record.info.defaultVersion = some version →
    ∃ schema, record.versions.find? version = some schema ∧ schema.status ≠ .retired

private theorem defaultLive_iff {record : EntityRecord} :
    DefaultLive record ↔
      ∀ version, record.info.defaultVersion = some version → record.isLive version = true := by
  simp only [DefaultLive, isLive_record_iff]

/-- The default version of every entity that has one is registered and not retired. -/
def DefaultsLive (registry : Registry) : Prop :=
  ∀ name record, registry.entities.find? name = some record → DefaultLive record

/-- Who asks for a default version is never told that the version does not exist, and never
given a retired schema. -/
def DefaultsResolve (registry : Registry) : Prop :=
  ∀ name,
    (∀ entity version,
      registry.resolve name none ≠ .error (.versionNotFound entity version)) ∧
    ∀ schema, registry.resolve name none = .ok schema → schema.status ≠ .retired

theorem resolve_none_eq
    {registry : Registry} {name : String} {record : EntityRecord}
    (found : registry.entities.find? name = some record) :
    registry.resolve name none =
      match record.info.defaultVersion with
      | some version => versionOf record name version
      | none => .error (.noDefaultVersion name) := by
  rw [resolve, record_eq, found]
  show selectVersion record name none >>= versionOf record name = _
  unfold selectVersion
  cases record.info.defaultVersion <;> rfl

theorem DefaultsLive.defaultsResolve
    {registry : Registry} (live : registry.DefaultsLive) :
    registry.DefaultsResolve := by
  intro name
  cases found : registry.entities.find? name with
  | none => simp [resolve, record_eq, found, bind, Except.bind]
  | some record =>
      rw [resolve_none_eq found]
      cases named : record.info.defaultVersion with
      | none => simp
      | some version =>
          obtain ⟨schema, known, notRetired⟩ := live name record found version named
          simp [versionOf_eq, known, notRetired]

theorem defaultsLive_empty
    (config : Config) (judge : DataStoreJudge) :
    (empty config judge).DefaultsLive := by
  intro name record found
  simp [empty] at found

/-- Putting a record keeps all defaults live exactly if the record's own is. -/
theorem DefaultsLive.putRecord_iff
    {registry : Registry} (live : registry.DefaultsLive)
    (name : String) (record : EntityRecord) :
    (registry.putRecord name record).DefaultsLive ↔ DefaultLive record := by
  constructor
  · intro after
    exact after name record (by simp)
  · intro recordLive other found foundHere
    rw [find?_putRecord] at foundHere
    split at foundHere
    · cases foundHere
      exact recordLive
    · exact live other found foundHere

theorem DefaultsLive.putOrDrop
    {registry : Registry} (live : registry.DefaultsLive)
    (name : String) {record : EntityRecord} (recordLive : DefaultLive record) :
    (registry.putOrDrop name record).DefaultsLive := by
  unfold Registry.putOrDrop
  split
  · intro other found foundHere
    have before : registry.entities.find? other = some found := by
      rw [SortedMap.find?_erase] at foundHere
      split at foundHere
      · cases foundHere
      · exact foundHere
    exact live other found before
  · exact (live.putRecord_iff name record).2 recordLive

theorem DefaultLive.withDefault
    {record : EntityRecord} {version : String}
    (versionLive : record.isLive version = true) :
    DefaultLive { record with info := record.info.withDefault version } := by
  intro named sameNamed
  have same : version = named := Option.some.inj sameNamed
  subst same
  exact isLive_record_iff.1 versionLive

/-- Where a version is dropped as default, the default is another version. -/
theorem dropDefault_eq_some_iff
    {info : EntityInfo} {version named : String} :
    (EntityRecord.dropDefault version info).defaultVersion = some named ↔
      info.defaultVersion = some named ∧ named ≠ version := by
  unfold EntityRecord.dropDefault
  split
  · next dropped =>
      constructor
      · intro impossible
        cases impossible
      · rintro ⟨kept, different⟩
        rw [dropped] at kept
        exact (different (Option.some.inj kept).symm).elim
  · next notDropped =>
      constructor
      · intro kept
        refine ⟨kept, ?_⟩
        rintro rfl
        exact notDropped kept
      · exact And.left

theorem DefaultLive.retire
    {record : EntityRecord} (live : DefaultLive record)
    (version : String) (retired : EntitySchema) :
    DefaultLive (record.retire version retired) := by
  intro named isDefault
  obtain ⟨wasDefault, different⟩ := dropDefault_eq_some_iff.1 isDefault
  obtain ⟨schema, known, notRetired⟩ := live named wasDefault
  have stillKnown :
      (record.versions.insert version retired).find? named = some schema := by
    rw [SortedMap.find?_insert_of_ne record.versions retired different, known]
  exact ⟨schema, stillKnown, notRetired⟩

theorem DefaultLive.removeVersion
    {record : EntityRecord} (live : DefaultLive record) (version : String) :
    DefaultLive (record.removeVersion version) := by
  intro named isDefault
  obtain ⟨wasDefault, different⟩ := dropDefault_eq_some_iff.1 isDefault
  obtain ⟨schema, known, notRetired⟩ := live named wasDefault
  have stillKnown : (record.versions.erase version).find? named = some schema := by
    rw [SortedMap.find?_erase, if_neg different, known]
  exact ⟨schema, stillKnown, notRetired⟩

/-- The default that a submission names, if it names one, is its own version or a live version
of the entity. -/
def NamesLiveDefault (registry : Registry) (submitted : EntityMetadata) : Prop :=
  ∀ version, submitted.info.defaultVersion = some version →
    version = submitted.version ∨ registry.isLive submitted.info.name version = true

/-- What the registry has validated names a live default at that moment. -/
theorem namesLiveDefault_of_validate
    {registry : Registry} {submitted : EntityMetadata} {validated : ValidatedMetadata}
    (passed : registry.validate submitted = .ok validated) :
    registry.NamesLiveDefault validated.metadata := by
  obtain ⟨acceptable, same⟩ := acceptable_of_validate passed
  intro version named
  rw [same] at named ⊢
  have accepted := acceptable.defaultExists version named
  simp only [catalogFor, Bool.or_eq_true, Bool.and_eq_true, decide_eq_true_eq] at accepted
  exact accepted.imp And.right id

/-- A published record has the submitted default, or else the default from before. -/
theorem publishedRecord_defaultVersion
    (registry : Registry) (submitted : EntityMetadata) (schema : EntitySchema) :
    (registry.publishedRecord submitted schema).info.defaultVersion =
      submitted.info.defaultVersion.or
        ((registry.entities.find? submitted.info.name).bind
          fun record => record.info.defaultVersion) := by
  unfold publishedRecord recordFor
  rw [addVersion_name]
  cases registry.entities.find? submitted.info.name with
  | none => simp [EntityRecord.putVersion, EntityRecord.refresh, EntityRecord.ofInfo,
      EntityInfo.addVersion]
  | some record => rfl

/-- A publication leaves the entity with a live default exactly if its submission names one that
is live by now. -/
theorem defaultLive_publishedRecord_iff
    {registry : Registry} (live : registry.DefaultsLive)
    {submitted : EntityMetadata} {schema : EntitySchema}
    (published : submitted.schema.moveTo .published = .ok schema) :
    DefaultLive (registry.publishedRecord submitted schema) ↔
      registry.NamesLiveDefault submitted := by
  have moved := (EntitySchema.moveTo_eq_ok_iff.1 published).2
  have live_iff := isLive_publishedRecord_iff registry moved
  simp only [defaultLive_iff, live_iff, publishedRecord_defaultVersion]
  constructor
  · intro after version named
    apply after version
    rw [named]
    rfl
  · intro namesLive version isDefault
    cases named : submitted.info.defaultVersion with
    | some other =>
        rw [named] at isDefault
        cases isDefault
        exact namesLive version named
    | none =>
        rw [named] at isDefault
        obtain ⟨record, recordFound, wasDefault⟩ := Option.bind_eq_some_iff.1 isDefault
        have recordLive := defaultLive_iff.1 (live submitted.info.name record recordFound)
        exact Or.inr (isLive_iff.2 ⟨record, recordFound, recordLive version wasDefault⟩)

/-- Publishing the submission of a slot succeeds and makes a version the default that is not
live by now. -/
def Session.PublishesStale (session : Session) (slot : Nat) : Prop :=
  ∃ validated schema,
    session.validated[slot]? = some validated ∧
      (outcome (publish validated) session.registry).1 = .ok schema ∧
      ¬ session.registry.NamesLiveDefault validated.metadata

private theorem defaultsLive_publish_iff
    {registry : Registry} (live : registry.DefaultsLive) (validated : ValidatedMetadata) :
    (outcome (publish validated) registry).2.DefaultsLive ↔
      ∀ schema, (outcome (publish validated) registry).1 = .ok schema →
        registry.NamesLiveDefault validated.metadata := by
  rcases publish_cases registry validated with
    ⟨_, ended⟩ | ⟨move, _, _, ended⟩ | ⟨schema, _, published, ended⟩
  · simp [ended, live]
  · simp [ended, live]
  · simp only [ended, live.putRecord_iff, defaultLive_publishedRecord_iff live published,
      Except.ok.injEq, forall_eq']

theorem DefaultsLive.register
    {registry : Registry} (live : registry.DefaultsLive) (submitted : EntityMetadata) :
    (outcome (Registry.register submitted) registry).2.DefaultsLive := by
  rw [outcome_register]
  cases passed : registry.validate submitted with
  | error error => exact live
  | ok validated =>
      exact (defaultsLive_publish_iff live validated).2 fun _ _ =>
        namesLiveDefault_of_validate passed

theorem DefaultsLive.setDefault
    {registry : Registry} (live : registry.DefaultsLive) (name version : String) :
    (outcome (Registry.setDefault name version) registry).2.DefaultsLive := by
  rcases setDefault_cases registry name version with
    ⟨_, ended⟩ | ⟨_, _, _, ended⟩ | ⟨record, _, versionLive, ended⟩
  · rw [ended]
    exact live
  · rw [ended]
    exact live
  · rw [ended]
    exact (live.putRecord_iff name _).2 (DefaultLive.withDefault versionLive)

theorem DefaultsLive.retire
    {registry : Registry} (live : registry.DefaultsLive) (name version : String) :
    (outcome (Registry.retire name version) registry).2.DefaultsLive := by
  rcases retire_cases registry name version with
    ⟨_, ended⟩ | ⟨_, _, _, ended⟩ | ⟨_, _, _, _, _, _, ended⟩ |
      ⟨record, _, retired, found, _, _, ended⟩
  · rw [ended]
    exact live
  · rw [ended]
    exact live
  · rw [ended]
    exact live
  · rw [ended]
    exact (live.putRecord_iff name _).2 ((live name record found).retire version retired)

theorem DefaultsLive.remove
    {registry : Registry} (live : registry.DefaultsLive) (name version : String) :
    (outcome (Registry.remove name version) registry).2.DefaultsLive := by
  rcases remove_cases registry name version with
    ⟨_, ended⟩ | ⟨_, _, _, ended⟩ | ⟨record, _, found, _, ended⟩
  · rw [ended]
    exact live
  · rw [ended]
    exact live
  · rw [ended]
    exact live.putOrDrop name ((live name record found).removeVersion version)

/-- One operation keeps all defaults live, unless it publishes a stale one. -/
theorem Session.defaultsLive_step_iff
    {session : Session} (live : session.registry.DefaultsLive) (action : Action) :
    (session.step action).registry.DefaultsLive ↔
      ∀ slot, action = .publish slot → ¬ session.PublishesStale slot := by
  cases action with
  | publish slot =>
      cases held : session.validated[slot]? with
      | none => simp [step, PublishesStale, held, live]
      | some validated =>
          simp [step, PublishesStale, held, defaultsLive_publish_iff live]
  | validate submitted => simp [live]
  | register submitted => simpa [step] using live.register submitted
  | setDefault name version => simpa [step] using live.setDefault name version
  | retire name version => simpa [step] using live.retire name version
  | remove name version => simpa [step] using live.remove name version

/-- All defaults are live all along a run exactly if no publication on the way makes a version
the default that is not live by then. -/
theorem defaultsLive_run_iff
    (session : Session) (live : session.registry.DefaultsLive) (actions : List Action) :
    (∀ taken, taken <+: actions → (session.run taken).registry.DefaultsLive) ↔
      ∀ taken slot, taken ++ [.publish slot] <+: actions →
        ¬ (session.run taken).PublishesStale slot := by
  induction actions using List.reverseRecOn with
  | nil => simp [live]
  | append_singleton actions action hypothesis =>
      simp only [List.prefix_concat_iff, forall_eq_or_imp, Session.run_concat]
      constructor
      · rintro ⟨after, before⟩ taken slot (same | earlier)
        · obtain ⟨rfl, ⟨⟩⟩ := List.append_inj' same rfl
          have liveBefore := before _ List.prefix_rfl
          exact (Session.defaultsLive_step_iff liveBefore _).1 after slot rfl
        · exact hypothesis.1 before taken slot earlier
      · intro fresh
        have before := hypothesis.2 fun taken slot earlier =>
          fresh taken slot (Or.inr earlier)
        have liveBefore := before actions List.prefix_rfl
        refine ⟨(Session.defaultsLive_step_iff liveBefore action).2 ?_, before⟩
        rintro slot rfl
        exact fresh actions slot (Or.inl rfl)

/-- From an empty registry on, every default version is registered and not retired, and asking
for it finds it, exactly as long as no publication makes a version the default that has been
retired or removed since the submission was validated. -/
theorem defaults_live_throughout_iff
    (config : Config) (judge : DataStoreJudge) (actions : List Action) :
    (∀ taken, taken <+: actions →
        ((Session.start config judge).run taken).registry.DefaultsLive ∧
          ((Session.start config judge).run taken).registry.DefaultsResolve) ↔
      ∀ taken slot, taken ++ [.publish slot] <+: actions →
        ¬ ((Session.start config judge).run taken).PublishesStale slot := by
  rw [← defaultsLive_run_iff _ (defaultsLive_empty config judge)]
  constructor
  · intro holds taken reached
    exact (holds taken reached).1
  · intro live taken reached
    exact ⟨live taken reached, (live taken reached).defaultsResolve⟩

/-- The registry after a submission that names a live default was validated and published, with
another operation in between. -/
def publishedAfter (between : Action) : Registry :=
  ((Session.start .standard Config.standard.judge).run [
    .register (orderVersion "1.0.0" none),
    .validate (orderVersion "1.1.0" (some "1.0.0")),
    between,
    .publish 0]).registry

/-- If the version that a submission names as default is retired or removed while the submission
is held back, then a retired version becomes the default, or one that is not there. -/
theorem held_back_default_goes_stale :
    ¬ (publishedAfter (.retire "Order" "1.0.0")).DefaultsLive ∧
      ((publishedAfter (.retire "Order" "1.0.0")).resolve "Order" none).toOption.map
        EntitySchema.status = some .retired ∧
      (publishedAfter (.remove "Order" "1.0.0")).resolve "Order" none =
        .error (.versionNotFound "Order" "1.0.0") := by
  have retiredFound :
      ((publishedAfter (.retire "Order" "1.0.0")).resolve "Order" none).toOption.map
        EntitySchema.status = some .retired := by
    decide +kernel
  refine ⟨?_, retiredFound, rfl⟩
  intro live
  obtain ⟨schema, resolved, isRetired⟩ := Option.map_eq_some_iff.1 retiredFound
  have found :
      (publishedAfter (.retire "Order" "1.0.0")).resolve "Order" none = .ok schema := by
    cases answer : (publishedAfter (.retire "Order" "1.0.0")).resolve "Order" none with
    | error error =>
        rw [answer] at resolved
        cases resolved
    | ok other =>
        rw [answer] at resolved
        cases resolved
        rfl
  exact (live.defaultsResolve "Order").2 schema found isRetired

end Schemata.Registry

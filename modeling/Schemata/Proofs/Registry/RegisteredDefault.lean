import Schemata.Proofs.Registry.DefaultVersion
import Schemata.Proofs.Registry.Locality
import Schemata.Proofs.Registry.Records

/-!
# Defaults named at registration

A version may be made the default by the submission that brings it or another version of the entity,
or later on by itself. Both ways accept the same versions, and both come to the same registry: the
default that a submission names is checked against the versions that are live before and its own one,
and these are the versions that are live once it is published.
-/
namespace Schemata.Registry

open Attempt

variable {registry later : Registry} {submitted : EntityMetadata} {version : String}

/-- A submission that names a default passes all checks if it passes them without, and the catalog
knows the default. -/
theorem acceptable_withDefault_iff
    {catalog : VersionCatalog} {judge : DataStoreJudge} (judgesStore : JudgesStore judge)
    (noDefault : submitted.info.defaultVersion = none) :
    Metadata.Acceptable catalog judge
        { submitted with info := submitted.info.withDefault version } ↔
      Metadata.Acceptable catalog judge submitted ∧
        catalog submitted.info.name version = true := by
  have sameStore : judge (submitted.info.withDefault version) = judge submitted.info :=
    judgesStore _ _ rfl
  constructor
  · intro acceptable
    refine ⟨?_, acceptable.defaultExists version rfl⟩
    refine ⟨acceptable.named, acceptable.namesAgree, acceptable.numbered, acceptable.hasFields,
      sameStore ▸ acceptable.stored, ?_⟩
    intro other named
    rw [noDefault] at named
    cases named
  · rintro ⟨acceptable, known⟩
    refine ⟨acceptable.named, acceptable.namesAgree, acceptable.numbered, acceptable.hasFields,
      sameStore.trans acceptable.stored, ?_⟩
    intro other named
    cases named
    exact known

private theorem catalogFor_own_iff :
    registry.catalogFor submitted submitted.info.name version = true ↔
      version = submitted.version ∨ registry.isLive submitted.info.name version = true := by
  simp [catalogFor]

private theorem publishedRecord_withDefault
    (registry : Registry) (submitted : EntityMetadata) (schema : EntitySchema)
    (version : String) :
    registry.publishedRecord { submitted with info := submitted.info.withDefault version } schema =
      { registry.publishedRecord submitted schema with
        info := (registry.publishedRecord submitted schema).info.withDefault version } := by
  unfold publishedRecord recordFor
  have sameName : (submitted.info.withDefault version).name = submitted.info.name := rfl
  rw [addVersion_name, addVersion_name, sameName]
  cases registry.entities.find? submitted.info.name with
  | none => rfl
  | some record => rfl

private theorem outcome_setDefault_eq_ok_iff {name : String} :
    outcome (setDefault name version) registry = (.ok (), later) ↔
      ∃ record,
        registry.entities.find? name = some record ∧ record.isLive version = true ∧
          later = registry.putRecord name { record with info := record.info.withDefault version } := by
  rw [outcome_setDefault]
  cases registry.entities.find? name with
  | none => simp
  | some record =>
      cases live : record.isLive version with
      | false => simp [live]
      | true => simp only [live, if_true, Prod.mk.injEq, true_and, Option.some.injEq,
          exists_eq_left', eq_comm]

/-- In a registry that judges nothing but the data store of a submission, to register with a default
is to register without and to choose the default then. -/
theorem outcome_register_withDefault_iff
    (judgesStore : JudgesStore registry.judge) (noDefault : submitted.info.defaultVersion = none)
    {schema : EntitySchema} :
    outcome (register { submitted with info := submitted.info.withDefault version }) registry =
        (.ok schema, later) ↔
      ∃ between,
        outcome (register submitted) registry = (.ok schema, between) ∧
          outcome (setDefault submitted.info.name version) between = (.ok (), later) := by
  simp only [outcome_register_eq_ok_iff, outcome_setDefault_eq_ok_iff,
    acceptable_withDefault_iff judgesStore noDefault, publishedRecord_withDefault]
  constructor
  · rintro ⟨fresh, ⟨acceptable, known⟩, proposed, published, rfl⟩
    have live := (isLive_publishedRecord_iff registry published version).2
      (catalogFor_own_iff.1 known)
    refine ⟨_, ⟨fresh, acceptable, proposed, published, rfl⟩, _, ?_, live, ?_⟩
    · rw [find?_putRecord, if_pos rfl]
    · rw [putRecord_putRecord]
      rfl
  · rintro ⟨between, ⟨fresh, acceptable, proposed, published, rfl⟩, record, found, live, rfl⟩
    rw [find?_putRecord, if_pos rfl] at found
    cases found
    have known := catalogFor_own_iff.2
      ((isLive_publishedRecord_iff registry published version).1 live)
    refine ⟨fresh, ⟨acceptable, known⟩, proposed, published, ?_⟩
    rw [putRecord_putRecord]
    rfl

theorem Session.judge_run
    (config : Config) (judge : DataStoreJudge) (actions : List Action) :
    ((Session.start config judge).run actions).registry.judge = judge :=
  @Session.run_invariant (fun registry _ => registry.judge = judge)
    (fun _ _ _ _ same happened => happened.judge_eq.trans same)
    _ (Session.vetted_start config judge) [] rfl actions

/-- Whatever operations have led to a registry that accepts a set of backends, to register a
submission with a default version succeeds exactly if registering it without a default succeeds and
the version may be made the default then. The published schema and the registry come out the same. -/
theorem register_withDefault_iff
    (config : Config) (accepted : TextSet) (actions : List Action)
    (submitted : EntityMetadata) (noDefault : submitted.info.defaultVersion = none)
    (version : String) :
    let registry := ((Session.start config (acceptBackends accepted)).run actions).registry
    ∀ schema later,
      outcome (register { submitted with info := submitted.info.withDefault version }) registry =
          (.ok schema, later) ↔
        ∃ between,
          outcome (register submitted) registry = (.ok schema, between) ∧
            outcome (setDefault submitted.info.name version) between = (.ok (), later) := by
  intro registry schema later
  have judgesStore : JudgesStore registry.judge := by
    rw [Session.judge_run]
    exact judgesStore_acceptBackends accepted
  exact outcome_register_withDefault_iff judgesStore noDefault

def mongoOnly : TextSet :=
  .ofTexts ["mongo"]

def firstOrder : List Action :=
  [.register (orderVersion "1.0.0" none)]

def firstOrderRegistry : Registry :=
  ((Session.start .standard (acceptBackends mongoOnly)).run firstOrder).registry

/-- A later submission makes an earlier version the default, itself or with a step of its own. -/
theorem earlier_version_chosen_either_way :
    (orderVersion "1.1.0" none).info.defaultVersion = none ∧
      ∃ schema between later,
        outcome (register (orderVersion "1.1.0" none)) firstOrderRegistry = (.ok schema, between) ∧
          outcome (setDefault "Order" "1.0.0") between = (.ok (), later) ∧
          outcome (register (orderVersion "1.1.0" (some "1.0.0"))) firstOrderRegistry =
            (.ok schema, later) := by
  have noDefault : (orderVersion "1.1.0" none).info.defaultVersion = none := rfl
  obtain ⟨schema, between, later, registered, chosen⟩ :
      ∃ schema between later,
        outcome (register (orderVersion "1.1.0" none)) firstOrderRegistry = (.ok schema, between) ∧
          outcome (setDefault "Order" "1.0.0") between = (.ok (), later) :=
    ⟨_, _, _, rfl, rfl⟩
  have atOnce :=
    (register_withDefault_iff .standard mongoOnly firstOrder _ noDefault "1.0.0" schema later).2
      ⟨between, registered, chosen⟩
  exact ⟨noDefault, schema, between, later, registered, chosen, atOnce⟩

end Schemata.Registry

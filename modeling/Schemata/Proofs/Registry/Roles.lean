import Schemata.Proofs.Registry.Records
import Schemata.Proofs.RoleMap

/-!
# Roles of a registry

The roles that a registry shows for an entity are kept beside the versions that they come from. They
are those of the submission that was published last, followed by those that the versions grant as
long as they are not retired, in the order of the versions and with every repetition.
-/
namespace Schemata.Registry

variable {registry later : Registry} {name : String} {record : EntityRecord}
  {event : Option Event} {history : List Event}

theorem paths_liveRoles (record : EntityRecord) (role : String) (operation : Operation) :
    record.liveRoles.paths role operation =
      record.declaredRoles.paths role operation ++
        (record.versions.values.filter fun schema => schema.status ≠ .retired).flatMap
          fun schema => schema.grantedPaths record.info.name role operation := by
  have each (map : RoleMap) (schema : EntitySchema) :
      (map.merge (schema.roles record.info.name)).paths role operation =
        map.paths role operation ++
          schema.grantedPaths record.info.name role operation := by
    rw [RoleMap.paths_merge, EntitySchema.paths_roles]
  exact RoleMap.paths_foldl each _ record.declaredRoles

theorem paths_mappedRoles (registry : Registry) (role : String) (operation : Operation) :
    registry.mappedRoles.paths role operation =
      registry.entities.values.flatMap fun record => record.info.roles.paths role operation := by
  have each (map : RoleMap) (record : EntityRecord) :
      (map.merge record.info.roles).paths role operation =
        map.paths role operation ++ record.info.roles.paths role operation :=
    RoleMap.paths_merge map record.info.roles role operation
  rw [mappedRoles, RoleMap.paths_foldl each, RoleMap.paths_empty, List.nil_append]

private theorem lastSubmission?_published
    (history : List Event) (submitted : EntityMetadata) (schema : EntitySchema) :
    lastSubmission? (history ++ [.published submitted schema]) submitted.info.name =
      some submitted := by
  simp [lastSubmission?, Event.submission?]

private theorem lastSubmission?_other
    {last : Event} (other : last.submission? name = none) (history : List Event) :
    lastSubmission? (history ++ [last]) name = lastSubmission? history name := by
  simp [lastSubmission?, other]

/-- A record that shows the roles it should, after some history. -/
structure CurrentRoles (history : List Event) (name : String) (record : EntityRecord) : Prop where
  underName : record.info.name = name
  shown : record.info.roles = record.liveRoles
  declared :
    ∃ submitted,
      lastSubmission? history name = some submitted ∧
        record.declaredRoles = submitted.info.roles

private theorem declaredRoles_publishedRecord
    (registry : Registry) (submitted : EntityMetadata) (schema : EntitySchema) :
    (registry.publishedRecord submitted schema).declaredRoles = submitted.info.roles := by
  unfold publishedRecord recordFor
  cases registry.entities.find? (submitted.info.addVersion submitted.version).name <;> rfl

theorem CurrentRoles.after
    {last : Event} (current : CurrentRoles history name record)
    (other : last.submission? name = none) :
    CurrentRoles (history ++ [last]) name record where
  underName := current.underName
  shown := current.shown
  declared := by
    rw [lastSubmission?_other other]
    exact current.declared

theorem CurrentRoles.transition
    (each : EachRecord (CurrentRoles history) registry)
    (transition : Transition registry event later) :
    EachRecord (CurrentRoles (history ++ event.toList)) later := by
  cases transition with
  | still =>
      rw [Option.toList_none, List.append_nil]
      exact each
  | publish submitted accepted fresh schema published =>
      apply eachRecord_putRecord
      · intro other found different foundHere
        have otherEntity :
            (Event.published submitted schema).submission? other = none :=
          if_neg (Ne.symm different)
        exact (each other found foundHere).after otherEntity
      · refine ⟨?_, rfl, submitted, ?_, ?_⟩
        · exact publishedRecord_name
            (fun name record found => (each name record found).underName) submitted schema
        · exact lastSubmission?_published history submitted schema
        · exact declaredRoles_publishedRecord registry submitted schema
  | choose name version record found live =>
      have before : EachRecord (CurrentRoles (history ++ [.chosen name version])) registry :=
        fun other found foundHere => (each other found foundHere).after rfl
      have current := before name record found
      exact before.putRecord ⟨current.underName, current.shown, current.declared⟩
  | retire name version record schema found known published =>
      have before : EachRecord (CurrentRoles (history ++ [.retired name version])) registry :=
        fun other found foundHere => (each other found foundHere).after rfl
      have current := before name record found
      have sameName := dropDefault_name version record.info
      exact before.putRecord ⟨sameName.trans current.underName, rfl, current.declared⟩
  | remove name version record schema found known =>
      have before : EachRecord (CurrentRoles (history ++ [.removed name version])) registry :=
        fun other found foundHere => (each other found foundHere).after rfl
      have current := before name record found
      have sameName := dropDefault_name version
        { record.info with versions := record.info.versions.erase version }
      exact before.putOrDrop fun _ =>
        ⟨sameName.trans current.underName, rfl, current.declared⟩

/-- Whatever operations have led to a registry, the paths that it shows for an entity, a role and an
operation are those declared in the submission of the entity that was published last, followed by
those that the schemas of its versions grant, except the retired ones, in the order of the versions.
The paths for all entities together are those for each entity, in the order of their names. -/
theorem roles_throughout
    (config : Config) (judge : DataStoreJudge) (actions : List Action) :
    let session := Session.start config judge
    let registry := (session.run actions).registry
    (∀ name record, registry.entities.find? name = some record →
      ∃ submitted,
        lastSubmission? (session.events actions) name = some submitted ∧
          ∀ role operation,
            record.info.roles.paths role operation =
              submitted.info.roles.paths role operation ++
                (record.versions.values.filter fun schema => schema.status ≠ .retired).flatMap
                  fun schema => schema.grantedPaths name role operation) ∧
      ∀ role operation,
        registry.mappedRoles.paths role operation =
          registry.entities.values.flatMap fun record =>
            record.info.roles.paths role operation := by
  intro session registry
  have atStart : EachRecord (CurrentRoles []) session.registry :=
    eachRecord_empty _ config judge
  have throughout := @Session.run_invariant
    (fun registry history => EachRecord (CurrentRoles history) registry)
    (fun _ _ _ _ each happened => CurrentRoles.transition each happened)
    _ (Session.vetted_start config judge) [] atStart actions
  refine ⟨fun name record found => ?_, paths_mappedRoles registry⟩
  obtain ⟨underName, shown, submitted, isLast, declared⟩ := throughout name record found
  refine ⟨submitted, isLast, fun role operation => ?_⟩
  rw [shown, paths_liveRoles, declared, underName]

/-- Of two versions that grant the same, the retired one grants no more. -/
theorem secondOrder_roles :
    let history := (Session.start .standard Config.standard.judge).events secondOrderChosen
    ∃ record submitted, secondOrderRegistry.entities.find? "Order" = some record ∧
      record.info.defaultVersion = some "1.1.0" ∧
      record.statuses = [("1.0.0", .retired), ("1.1.0", .published)] ∧
      lastSubmission? history "Order" = some submitted ∧
      submitted.info.roles.paths "reader" .find = ["Archive"] ∧
      record.info.roles.paths "reader" .find =
        submitted.info.roles.paths "reader" .find ++
          ((record.versions.values.filter fun schema => schema.status ≠ .retired).flatMap
            fun schema => schema.grantedPaths "Order" "reader" .find) ∧
      secondOrderRegistry.mappedRoles.paths "reader" .find = ["Archive", "Order", "Order.id"] := by
  intro history
  obtain ⟨record, found, isDefault, statuses⟩ := exists_secondOrder_record
  obtain ⟨submitted, isLast, granted⟩ :=
    (roles_throughout .standard Config.standard.judge secondOrderChosen).1 "Order" record found
  have declared :
      (lastSubmission? history "Order").map
        (fun submitted => submitted.info.roles.paths "reader" .find) = some ["Archive"] := by
    decide +kernel
  rw [isLast] at declared
  exact ⟨record, submitted, found, isDefault, statuses, isLast, Option.some.inj declared,
    granted "reader" .find, by decide +kernel⟩

end Schemata.Registry

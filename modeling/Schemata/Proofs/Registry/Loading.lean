import Schemata.Command.Answer
import Schemata.Proofs.Attempt
import Schemata.Proofs.Metadata.DeclaredFields
import Schemata.Proofs.Registry.PublishedVersion

/-!
# Registries loaded from documents

All documents are read before the first one is registered, and then they are registered one after
the other. A later document of an entity may name a default that an earlier one has brought, and what
it says of the entity stands in place of what the earlier ones said.
-/
namespace Schemata.Command

open Attempt

variable {start registry later : Registry} {entries : List EntityMetadata} {entry : EntityMetadata}
  {name version : String}

/-- The documents that metadata consist of: the items of an array, or else the value itself. -/
def documentsOf : Json → List Json
  | .array documents => documents
  | document => [document]

private theorem readAll_eq (types : TypeRegistry) (metadata : Json) :
    Metadata.readAll types metadata = (documentsOf metadata).mapM (Metadata.read types) := by
  have single (document : Json) :
      List.singleton <$> Metadata.read types document = [document].mapM (Metadata.read types) := by
    rw [List.mapM_cons, List.mapM_nil]
    cases Metadata.read types document <;> rfl
  cases metadata with
  | array documents => rfl
  | _ => exact single _

def ReadAs : List Json → List EntityMetadata → Prop :=
  List.Forall₂ fun document entry => Metadata.read (.standard 0) document = .ok entry

/-- What an entry has to meet to be registered: its version is new, and all checks pass. -/
structure Admits (registry : Registry) (entry : EntityMetadata) : Prop where
  fresh : registry.hasVersion entry.info.name entry.version = false
  acceptable : Metadata.Acceptable (registry.catalogFor entry) registry.judge entry

private theorem proposed_of_read {types : TypeRegistry} {document : Json}
    (read : Metadata.read types document = .ok entry) : entry.schema.status = .proposed := by
  obtain ⟨members, schema, name, version, fields, access, _, _, _, isSchema⟩ :=
    Metadata.exists_of_read read
  rw [isSchema]
  rfl

private theorem outcome_register_of_admits
    (admits : Admits registry entry) (proposed : entry.schema.status = .proposed) :
    ∃ schema later, outcome (Registry.register entry) registry = (.ok schema, later) :=
  ⟨_, _, Registry.outcome_register_eq_ok_iff.2
    ⟨admits.fresh, admits.acceptable, proposed, rfl, rfl⟩⟩

private theorem admits_of_outcome_register
    {schema : EntitySchema}
    (done : outcome (Registry.register entry) registry = (.ok schema, later)) :
    Admits registry entry := by
  obtain ⟨fresh, acceptable, _⟩ := Registry.outcome_register_eq_ok_iff.1 done
  exact ⟨fresh, acceptable⟩

/-- An entry that has been read can be registered exactly if the registry admits it. -/
theorem registers_iff_admits
    {document : Json} (read : Metadata.read (.standard 0) document = .ok entry) :
    (∃ schema later, outcome (Registry.register entry) registry = (.ok schema, later)) ↔
      Admits registry entry := by
  constructor
  · rintro ⟨schema, later, done⟩
    exact admits_of_outcome_register done
  · intro admits
    exact outcome_register_of_admits admits (proposed_of_read read)

/-- Entries are registered one after the other, each in the registry that those before it make. -/
inductive Registers (start : Registry) : List EntityMetadata → Registry → Prop
  | nil : Registers start [] start
  | concat {entries : List EntityMetadata} {registry : Registry} (entry : EntityMetadata)
      (schema : EntitySchema) (later : Registry) :
      Registers start entries registry →
      outcome (Registry.register entry) registry = (.ok schema, later) →
      Registers start (entries ++ [entry]) later

private theorem addEntry_eq_ok_iff :
    addEntry registry entry = .ok later ↔
      ∃ schema, outcome (Registry.register entry) registry = (.ok schema, later) := by
  unfold addEntry
  obtain ⟨answer, after⟩ := outcome (Registry.register entry) registry
  cases answer <;> simp

private theorem addEntry_eq_error_iff {error : CommandError} :
    addEntry registry entry = .error error ↔
      ∃ fault, (outcome (Registry.register entry) registry).1 = .error fault ∧
        error = .registration entry.key fault := by
  unfold addEntry
  obtain ⟨answer, after⟩ := outcome (Registry.register entry) registry
  cases answer <;> simp [eq_comm]

private theorem foldlM_addEntry_eq_ok_iff :
    entries.foldlM addEntry start = .ok registry ↔ Registers start entries registry := by
  constructor
  · intro loaded
    induction entries using List.reverseRecOn generalizing registry with
    | nil =>
        cases loaded
        exact .nil
    | append_singleton entries entry hypothesis =>
        rw [List.foldlM_append] at loaded
        obtain ⟨between, before, loaded⟩ := bind_eq_ok_iff.1 loaded
        obtain ⟨later, added, same⟩ := bind_eq_ok_iff.1 loaded
        cases same
        obtain ⟨schema, done⟩ := addEntry_eq_ok_iff.1 added
        exact .concat entry schema registry (hypothesis before) done
  · intro registers
    induction registers with
    | nil => rfl
    | @concat entries registry entry schema later _ done hypothesis =>
        rw [List.foldlM_append, hypothesis]
        show [entry].foldlM addEntry registry = .ok later
        rw [List.foldlM_cons, addEntry_eq_ok_iff.2 ⟨schema, done⟩]
        rfl

/-- The default that the last entry of an entity that names one names. -/
def lastDefault? (entries : List EntityMetadata) (name : String) : Option String :=
  ((entries.filter fun entry => entry.info.name = name).filterMap
    fun entry => entry.info.defaultVersion).getLast?

private theorem lastDefault?_concat (entries : List EntityMetadata) (entry : EntityMetadata)
    (name : String) :
    lastDefault? (entries ++ [entry]) name =
      if name = entry.info.name then entry.info.defaultVersion.or (lastDefault? entries name)
      else lastDefault? entries name := by
  unfold lastDefault?
  by_cases same : name = entry.info.name
  · subst same
    cases named : entry.info.defaultVersion with
    | none => simp [named]
    | some version => simp [named]
  · simp [same, Ne.symm same]

/-- The default version of an entity, if it is known and has one. -/
def default? (registry : Registry) (name : String) : Option String :=
  (registry.entities.find? name).bind fun record => record.info.defaultVersion

/-- What a registration changes: the version of the entry is new, and its default goes before the one
that its entity had. -/
structure Registration (registry : Registry) (entry : EntityMetadata) (later : Registry) : Prop where
  fresh : registry.schema? entry.info.name entry.version = none
  schema?_eq :
    ∀ name version,
      later.schema? name version =
        if name = entry.info.name ∧ version = entry.version then
          some { entry.schema with status := .published }
        else registry.schema? name version
  default?_eq :
    ∀ name,
      default? later name =
        if name = entry.info.name then entry.info.defaultVersion.or (default? registry name)
        else default? registry name

private theorem registration_of_transition
    {schema : EntitySchema}
    (happened : Registry.Transition registry (some (.published entry schema)) later) :
    Registration registry entry later := by
  have changed := happened.schema?_eq
  have fresh := happened.published.1
  cases happened with
  | publish _ _ _ _ published =>
      subst published
      refine ⟨fresh, changed, fun name => ?_⟩
      unfold default?
      rw [Registry.find?_putRecord]
      split
      · next same =>
          rw [same]
          exact Registry.publishedRecord_defaultVersion registry entry _
      · rfl

private theorem registration_of_register
    {schema : EntitySchema}
    (done : outcome (Registry.register entry) registry = (.ok schema, later)) :
    Registration registry entry later := by
  have happened := Registry.transition_register registry entry
  rw [done] at happened
  exact registration_of_transition happened

/-- The entries, and nothing else, are registered. -/
structure Loaded (entries : List EntityMetadata) (registry : Registry) : Prop where
  apart : (entries.map fun entry => (entry.info.name, entry.version)).Nodup
  registered :
    ∀ name version schema,
      registry.schema? name version = some schema ↔
        ∃ entry ∈ entries,
          entry.info.name = name ∧ entry.version = version ∧
            schema = { entry.schema with status := .published }
  defaults : ∀ name, default? registry name = lastDefault? entries name
  live : registry.DefaultsLive

/-- No earlier entry has the entity and the version of one that is registered. -/
theorem Loaded.notListed
    {earlier : EntityMetadata} (loaded : Loaded entries registry)
    (registration : Registration registry entry later) (listed : earlier ∈ entries) :
    ¬(earlier.info.name = entry.info.name ∧ earlier.version = entry.version) := by
  rintro ⟨sameName, sameVersion⟩
  have known := (loaded.registered _ _ _).2 ⟨earlier, listed, sameName, sameVersion, rfl⟩
  rw [registration.fresh] at known
  cases known

theorem Loaded.registered_concat
    (loaded : Loaded entries registry) (registration : Registration registry entry later)
    (name version : String) (schema : EntitySchema) :
    later.schema? name version = some schema ↔
      ∃ other ∈ entries ++ [entry],
        other.info.name = name ∧ other.version = version ∧
          schema = { other.schema with status := .published } := by
  rw [registration.schema?_eq]
  split
  · next here =>
      obtain ⟨rfl, rfl⟩ := here
      constructor
      · intro same
        exact ⟨entry, by simp, rfl, rfl, (Option.some.inj same).symm⟩
      · rintro ⟨other, listed, sameName, sameVersion, rfl⟩
        rcases List.mem_append.1 listed with earlier | isNew
        · exact (loaded.notListed registration earlier ⟨sameName, sameVersion⟩).elim
        · rw [List.mem_singleton.1 isNew]
  · next elsewhere =>
      rw [loaded.registered]
      constructor
      · rintro ⟨earlier, listed, rest⟩
        exact ⟨earlier, List.mem_append_left _ listed, rest⟩
      · rintro ⟨other, listed, sameName, sameVersion, rest⟩
        rcases List.mem_append.1 listed with earlier | isNew
        · exact ⟨other, earlier, sameName, sameVersion, rest⟩
        · rw [List.mem_singleton.1 isNew] at sameName sameVersion
          exact (elsewhere ⟨sameName.symm, sameVersion.symm⟩).elim

theorem Loaded.register
    {schema : EntitySchema} (loaded : Loaded entries registry)
    (done : outcome (Registry.register entry) registry = (.ok schema, later)) :
    Loaded (entries ++ [entry]) later := by
  have registration := registration_of_register done
  refine ⟨?_, loaded.registered_concat registration, fun name => ?_, ?_⟩
  · rw [List.map_append, List.nodup_append]
    refine ⟨loaded.apart, List.nodup_singleton _, ?_⟩
    rintro pair listed other isNew rfl
    obtain ⟨earlier, earlierListed, rfl⟩ := List.mem_map.1 listed
    have same := List.mem_singleton.1 isNew
    exact loaded.notListed registration earlierListed
      ⟨congrArg Prod.fst same, congrArg Prod.snd same⟩
  · rw [registration.default?_eq, lastDefault?_concat, loaded.defaults]
  · have live := loaded.live.register entry
    rwa [done] at live

theorem Registers.loaded
    {config : Config} (registers : Registers (.ofConfig config) entries registry) :
    Loaded entries registry := by
  induction registers with
  | nil =>
      refine ⟨.nil, fun name version schema => ?_, fun name => rfl, ?_⟩
      · simp [Registry.ofConfig, Registry.empty, Registry.schema?]
      · exact Registry.defaultsLive_empty config config.judge
  | concat entry schema later _ done hypothesis => exact hypothesis.register done

theorem Loaded.resolve_eq (loaded : Loaded entries registry) (listed : entry ∈ entries) :
    registry.resolve entry.info.name (some entry.version) =
      .ok { entry.schema with status := .published } :=
  Registry.resolve_of_schema? ((loaded.registered _ _ _).2 ⟨entry, listed, rfl, rfl, rfl⟩)

theorem Loaded.hasVersion_iff (loaded : Loaded entries registry) :
    registry.hasVersion name version = true ↔
      ∃ entry ∈ entries, entry.info.name = name ∧ entry.version = version := by
  rw [Registry.hasVersion_eq_isSome, Option.isSome_iff_exists]
  constructor
  · rintro ⟨schema, known⟩
    obtain ⟨entry, listed, sameName, sameVersion, _⟩ := (loaded.registered _ _ _).1 known
    exact ⟨entry, listed, sameName, sameVersion⟩
  · rintro ⟨entry, listed, sameName, sameVersion⟩
    exact ⟨_, (loaded.registered _ _ _).2 ⟨entry, listed, sameName, sameVersion, rfl⟩⟩

theorem Loaded.resolve_none_eq
    (loaded : Loaded entries registry) (named : lastDefault? entries name = some version) :
    ∃ entry ∈ entries,
      entry.info.name = name ∧ entry.version = version ∧
        registry.resolve name none = .ok { entry.schema with status := .published } := by
  rw [← loaded.defaults] at named
  obtain ⟨record, found, isDefault⟩ := Option.bind_eq_some_iff.1 named
  obtain ⟨schema, known, _⟩ := loaded.live name record found version isDefault
  have isRegistered := (Registry.schema?_of_record found).trans known
  obtain ⟨entry, listed, sameName, sameVersion, rfl⟩ := (loaded.registered _ _ _).1 isRegistered
  refine ⟨entry, listed, sameName, sameVersion, ?_⟩
  rw [Registry.resolve_none_eq found, isDefault]
  show Registry.versionOf record name version = _
  rw [Registry.versionOf_eq, known]

theorem Loaded.defaultVersion_eq
    {info : EntityInfo} (loaded : Loaded entries registry) (known : registry.info name = .ok info) :
    info.defaultVersion = lastDefault? entries name := by
  rw [← loaded.defaults, default?]
  rw [Registry.info, Registry.record_eq] at known
  cases found : registry.entities.find? name with
  | none =>
      rw [found] at known
      cases known
  | some record =>
      rw [found] at known
      cases known
      rfl

private theorem loadRegistry_eq (config : Config) (metadata : Json) :
    loadRegistry config metadata =
      (((documentsOf metadata).mapM (Metadata.read (.standard 0))).mapError CommandError.document >>=
        List.foldlM addEntry (.ofConfig config)) := by
  rw [loadRegistry, readAll_eq]

private theorem loadRegistry_eq_ok_iff {config : Config} {metadata : Json} :
    loadRegistry config metadata = .ok registry ↔
      ∃ entries, ReadAs (documentsOf metadata) entries ∧
        Registers (.ofConfig config) entries registry := by
  rw [loadRegistry_eq, bind_eq_ok_iff]
  simp only [mapError_eq_ok_iff, mapM_eq_ok_iff, foldlM_addEntry_eq_ok_iff]
  rfl

private theorem loadRegistry_eq_error_iff {config : Config} {metadata : Json}
    {error : CommandError} :
    loadRegistry config metadata = .error error ↔
      (∃ front document back fault,
        documentsOf metadata = front ++ document :: back ∧
          (∀ earlier ∈ front, ∃ entry, Metadata.read (.standard 0) earlier = .ok entry) ∧
          Metadata.read (.standard 0) document = .error fault ∧ error = .document fault) ∨
      ∃ front entry back registry fault,
        ReadAs (documentsOf metadata) (front ++ entry :: back) ∧
          Registers (.ofConfig config) front registry ∧
            (outcome (Registry.register entry) registry).1 = .error fault ∧
              error = .registration (versionKey entry.info.name entry.version) fault := by
  rw [loadRegistry_eq, bind_eq_error_iff]
  simp only [mapError_eq_ok_iff, mapError_eq_error_iff, mapM_eq_ok_iff, mapM_eq_error_iff,
    foldlM_eq_error_iff, foldlM_addEntry_eq_ok_iff, addEntry_eq_error_iff]
  constructor
  · rintro (⟨fault, ⟨front, document, back, whole, before, failed⟩, same⟩ |
      ⟨_, readAs, front, entry, back, registry, rfl, registers, fault, refused, same⟩)
    · exact Or.inl ⟨front, document, back, fault, whole, before, failed, same⟩
    · exact Or.inr ⟨front, entry, back, registry, fault, readAs, registers, refused, same⟩
  · rintro (⟨front, document, back, fault, whole, before, failed, same⟩ |
      ⟨front, entry, back, registry, fault, readAs, registers, refused, same⟩)
    · exact Or.inl ⟨fault, ⟨front, document, back, whole, before, failed⟩, same⟩
    · exact Or.inr
        ⟨_, readAs, front, entry, back, registry, rfl, registers, fault, refused, same⟩

private theorem loaded_of_loadRegistry
    {config : Config} {metadata : Json} (loads : loadRegistry config metadata = .ok registry)
    (readAs : ReadAs (documentsOf metadata) entries) : Loaded entries registry := by
  obtain ⟨others, othersRead, registers⟩ := loadRegistry_eq_ok_iff.1 loads
  have same : others = entries :=
    Except.ok.inj ((mapM_eq_ok_iff.2 othersRead).symm.trans (mapM_eq_ok_iff.2 readAs))
  exact same ▸ registers.loaded

/-- A load ends well if all documents are read and then each of them can be registered with those
before it: its version is not there yet, and it passes all checks. Else the load ends with the fault of
the first document that is not read, or if there is none, with that of the first entry that is not
registered, under the name of its entity and its version. What is loaded are the versions of the
documents, each once and as its document declares it. An entity has the default that was named last by
one of its documents, and it is one of the versions. -/
theorem registry_of_documents (config : Config) (metadata : Json) :
    let documents := documentsOf metadata
    let start := Registry.ofConfig config
    (∀ registry,
      loadRegistry config metadata = .ok registry ↔
        ∃ entries, ReadAs documents entries ∧ Registers start entries registry) ∧
    (∀ document entry registry, Metadata.read (.standard 0) document = .ok entry →
      ((∃ schema later, outcome (Registry.register entry) registry = (.ok schema, later)) ↔
        Admits registry entry)) ∧
    (∀ error,
      loadRegistry config metadata = .error error ↔
        (∃ front document back fault,
          documents = front ++ document :: back ∧
            (∀ earlier ∈ front, ∃ entry, Metadata.read (.standard 0) earlier = .ok entry) ∧
            Metadata.read (.standard 0) document = .error fault ∧ error = .document fault) ∨
        ∃ front entry back registry fault,
          ReadAs documents (front ++ entry :: back) ∧ Registers start front registry ∧
            (outcome (Registry.register entry) registry).1 = .error fault ∧
              error = .registration (versionKey entry.info.name entry.version) fault) ∧
    ∀ registry entries, loadRegistry config metadata = .ok registry → ReadAs documents entries →
      (entries.map fun entry => (entry.info.name, entry.version)).Nodup ∧
      (∀ name version,
        registry.hasVersion name version = true ↔
          ∃ entry ∈ entries, entry.info.name = name ∧ entry.version = version) ∧
      (∀ entry ∈ entries,
        registry.resolve entry.info.name (some entry.version) =
          .ok { entry.schema with status := .published }) ∧
      (∀ name info, registry.info name = .ok info →
        info.defaultVersion = lastDefault? entries name) ∧
      ∀ name version, lastDefault? entries name = some version →
        ∃ entry ∈ entries,
          entry.info.name = name ∧ entry.version = version ∧
            registry.resolve name none = .ok { entry.schema with status := .published } := by
  intro documents start
  refine ⟨fun _ => loadRegistry_eq_ok_iff, fun _ _ _ => registers_iff_admits,
    fun _ => loadRegistry_eq_error_iff, fun registry entries loads readAs => ?_⟩
  have loaded : Loaded entries registry := loaded_of_loadRegistry loads readAs
  exact ⟨loaded.apart, fun _ _ => loaded.hasVersion_iff, fun _ => loaded.resolve_eq,
    fun _ _ => loaded.defaultVersion_eq, fun _ _ => loaded.resolve_none_eq⟩

/-- A version of orders with an identifier, in an entity with a default or null in place of it. -/
def orderDocument (number : String) (defaultVersion : Json) : Json :=
  .object [
    ("entityInfo", .object [
      ("name", .string "Order"),
      ("defaultVersion", defaultVersion),
      ("datastore", .object [("backend", .string "mongo")])]),
    ("schema", .object [
      ("version", .string number),
      ("fields", .object [("id", .object [("type", .string "uid")])])])]

def orderEntry (number : String) (defaultVersion : Option String) : EntityMetadata where
  info := ⟨"Order", .ofTexts [number], defaultVersion, .ofBackend "mongo", ∅⟩
  schema :=
    .propose "Order" (.ofNumber number)
      (FieldTree.empty.attach FieldTree.root "id" (.leaf ⟨0, 6, .scalar .uid⟩ [])) ∅

/-- The second document makes the version of the first one the default. -/
theorem earlier_version_as_default :
    let orders := Json.array [orderDocument "1.0.0" .null, orderDocument "1.1.0" (.string "1.0.0")]
    let entries := [orderEntry "1.0.0" none, orderEntry "1.1.0" (some "1.0.0")]
    ∃ registry,
      loadRegistry .standard orders = .ok registry ∧ ReadAs (documentsOf orders) entries ∧
        registry.resolve "Order" none =
          .ok { (orderEntry "1.0.0" none).schema with status := .published } := by
  intro orders entries
  have readAs : ReadAs (documentsOf orders) entries := by
    refine .cons ?_ (.cons ?_ .nil)
    · rfl
    · rfl
  obtain ⟨registry, registered⟩ :
      ∃ registry,
        [orderEntry "1.0.0" none, orderEntry "1.1.0" (some "1.0.0")].foldlM addEntry
          (.ofConfig .standard) = .ok registry :=
    ⟨_, rfl⟩
  have loading := registry_of_documents .standard orders
  have loads : loadRegistry .standard orders = .ok registry :=
    (loading.1 registry).2 ⟨entries, readAs, foldlM_addEntry_eq_ok_iff.1 registered⟩
  obtain ⟨_, _, _, _, defaults⟩ := loading.2.2.2 registry entries loads readAs
  obtain ⟨entry, listed, _, isVersion, resolved⟩ := defaults "Order" "1.0.0" (by decide)
  refine ⟨registry, loads, readAs, ?_⟩
  rcases List.mem_pair.1 listed with rfl | rfl
  · exact resolved
  · exact absurd isVersion (by decide)

end Schemata.Command

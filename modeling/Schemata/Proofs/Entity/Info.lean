import Schemata.Entity.Info
import Schemata.Proofs.Attempt
import Schemata.Proofs.RoleMap

/-!
# Entity facts written and read

Entity facts are read from objects in any order and from rows of values, with parts that may be
missing and versions that may repeat. They are written in one way, from which the same facts are read.
Only a property of a data store that has the name of the backend would be taken for the backend, and
none that has been read has that name.
-/
namespace Schemata

namespace Json

theorem asList_ofTexts (texts : List String) :
    (Json.ofTexts texts).asList Json.asText = .ok texts := by
  apply mapM_map_eq_ok
  intro text
  rfl

/-- A map is read back if its names and its values are. -/
theorem asMap_object_map
    {κ α : Type} {readName : String → Except ShapeFault κ} {readValue : Json → Except ShapeFault α}
    (name : κ → String) (write : α → Json)
    (nameBack : ∀ key, readName (name key) = .ok key)
    (valueBack : ∀ value, readValue (write value) = .ok value) (entries : List (κ × α)) :
    (Json.object (entries.map fun entry => (name entry.1, write entry.2))).asMap
        readName readValue =
      .ok entries := by
  apply mapM_map_eq_ok
  intro entry
  rw [nameBack, valueBack]
  rfl

private theorem readFields_cons
    {δ : Type} {put : δ → String → Json → Except ShapeFault δ} {draft later : δ}
    {name : String} {value : Json} (read : put draft name value = .ok later) (rest : Members) :
    readFields put draft ((name, value) :: rest) = readFields put later rest := by
  rw [readFields, List.foldlM_cons, read]
  rfl

private theorem readFields_append
    {δ : Type} {put : δ → String → Json → Except ShapeFault δ} {draft later : δ}
    {front : Members} (read : readFields put draft front = .ok later) (back : Members) :
    readFields put draft (front ++ back) = readFields put later back := by
  rw [readFields] at read
  rw [readFields, List.foldlM_append, read]
  rfl

end Json

theorem Operation.readName_name (operation : Operation) :
    readName operation.name = .ok operation := by
  cases operation <;> rfl

theorem Access.ofJson_written (access : Access) :
    Access.ofJson access.toJson = .ok access := by
  have entries :=
    Json.asMap_object_map Operation.name Json.ofTexts Operation.readName_name Json.asList_ofTexts
      access.entries
  rw [ofJson, toJson, entries]
  exact congrArg Except.ok access.ofList_entries

/-- Roles without operations and operations without paths are written and read like others. -/
theorem RoleMap.ofJson_written (map : RoleMap) :
    RoleMap.ofJson map.toJson = .ok map := by
  have entries :=
    Json.asMap_object_map (fun role : String => role) Access.toJson (fun _ => Eq.refl (Except.ok _))
      Access.ofJson_written map.grants.entries
  rw [ofJson, toJson, entries]
  exact congrArg (fun grants => Except.ok (RoleMap.mk grants)) map.grants.ofList_entries

theorem RoleMap.eq_empty_of_isEmpty {map : RoleMap} (empty : map.isEmpty = true) :
    map = ∅ :=
  congrArg RoleMap.mk (SortedMap.eq_empty_of_isEmpty empty)

namespace DataStore

/-- No property has the name under which the backend is written. -/
def KeepsApart (store : DataStore) : Prop :=
  "backend" ∉ store.properties.map Prod.fst

theorem keepsApart_of_ofJson {value : Json} {store : DataStore} (read : ofJson value = .ok store) :
    store.KeepsApart := by
  cases value with
  | object members =>
      rw [ofJson] at read
      cases found : Members.find? members "backend" with
      | none =>
          rw [found] at read
          cases read
      | some backend =>
          rw [found] at read
          obtain ⟨name, _, same⟩ := bind_eq_ok_iff.1 read
          cases same
          rw [KeepsApart, List.mem_map]
          rintro ⟨member, kept, named⟩
          have other := (List.mem_filter.1 kept).2
          simp [named] at other
  | _ => cases read

theorem ofJson_written {store : DataStore} (apart : store.KeepsApart) :
    ofJson store.toJson = .ok store := by
  have others : store.properties.filter (fun member => member.1 ≠ "backend") = store.properties := by
    rw [List.filter_eq_self]
    intro member listed
    have other : member.1 ≠ "backend" := fun named =>
      apart (named ▸ List.mem_map_of_mem listed)
    simpa using other
  rw [toJson, ofJson, Members.find?, SortedMap.lookup_cons_eq, if_pos rfl, List.filter_cons_of_neg,
    others]
  · rfl
  · simp

end DataStore

namespace EntityInfo

namespace Draft

/-- A data store that has been met has no property under the name of the backend. -/
def KeepsApart (draft : Draft) : Prop :=
  ∀ store, draft.dataStore = some store → store.KeepsApart

theorem KeepsApart.put
    {draft later : Draft} {name : String} {value : Json} (apart : draft.KeepsApart)
    (read : draft.put name value = .ok later) :
    later.KeepsApart := by
  unfold Draft.put at read
  split at read
  case h_4 =>
    obtain ⟨store, readStore, same⟩ := bind_eq_ok_iff.1 read
    cases same
    intro met same
    cases same
    exact DataStore.keepsApart_of_ofJson readStore
  case h_6 =>
    cases read
    exact apart
  all_goals
    obtain ⟨_, _, same⟩ := bind_eq_ok_iff.1 read
    cases same
    exact apart

theorem KeepsApart.finish
    {draft : Draft} {noName noDataStore : ShapeFault} {info : EntityInfo}
    (apart : draft.KeepsApart) (finished : draft.finish noName noDataStore = .ok info) :
    info.dataStore.KeepsApart := by
  unfold Draft.finish at finished
  split at finished
  · cases finished
  · cases finished
  · next met =>
      cases finished
      exact apart _ met

end Draft

theorem keepsApart_of_ofJson {value : Json} {info : EntityInfo} (read : ofJson value = .ok info) :
    info.dataStore.KeepsApart := by
  have blank : Draft.blank.KeepsApart := by
    intro store met
    cases met
  have filled {members : Members} {draft : Draft}
      (put : members.foldlM (fun draft member => Draft.put draft member.1 member.2) Draft.blank =
        .ok draft) :
      draft.KeepsApart :=
    foldlM_invariant (fun _ _ _ apart read => Draft.KeepsApart.put apart read) blank put
  cases value with
  | object members =>
      obtain ⟨draft, put, finished⟩ := bind_eq_ok_iff.1 read
      exact (filled put).finish finished
  | array items =>
      obtain ⟨draft, put, read⟩ := bind_eq_ok_iff.1 read
      obtain ⟨finishedInfo, finished, read⟩ := bind_eq_ok_iff.1 read
      obtain ⟨_, same⟩ := check_bind_eq_ok_iff.1 read
      cases same
      exact (filled put).finish finished
  | _ => cases read

namespace Draft

private theorem put_versions (draft : Draft) (versions : TextSet) :
    draft.put "versions" (.ofTexts versions.keys) = .ok { draft with versions := versions } := by
  rw [put, Json.asList_ofTexts]
  exact congrArg (fun versions => Except.ok { draft with versions := versions })
    versions.ofTexts_keys

private theorem put_dataStore (draft : Draft) {store : DataStore} (apart : store.KeepsApart) :
    draft.put "datastore" store.toJson = .ok { draft with dataStore := some store } := by
  rw [put, DataStore.ofJson_written apart]
  rfl

private theorem put_roles (draft : Draft) (roles : RoleMap) :
    draft.put "roles" roles.toJson = .ok { draft with roles := roles } := by
  rw [put, RoleMap.ofJson_written]
  rfl

end Draft

/-- Entity facts are read as they were written, if no property of the data store is taken for the
backend. -/
theorem ofJson_of_keepsApart {info : EntityInfo} (apart : info.dataStore.KeepsApart) :
    ofJson info.toJson = .ok info := by
  obtain ⟨name, versions, defaultVersion, store, roles⟩ := info
  have named :
      Json.readFields Draft.put .blank
          [("name", .string name), ("versions", .ofTexts versions.keys)] =
        .ok ⟨some name, versions, none, none, ∅⟩ :=
    Json.readFields_cons (Draft.put_versions ⟨some name, ∅, none, none, ∅⟩ versions) []
  have defaulted :
      Json.readFields Draft.put ⟨some name, versions, none, none, ∅⟩
          (defaultVersion.toList.map fun version => ("defaultVersion", .string version)) =
        .ok ⟨some name, versions, defaultVersion, none, ∅⟩ := by
    cases defaultVersion <;> rfl
  have stored :
      Json.readFields Draft.put ⟨some name, versions, defaultVersion, none, ∅⟩
          [("datastore", store.toJson)] =
        .ok ⟨some name, versions, defaultVersion, some store, ∅⟩ :=
    Json.readFields_cons (Draft.put_dataStore _ apart) []
  have granted :
      Json.readFields Draft.put ⟨some name, versions, defaultVersion, some store, ∅⟩
          (if roles.isEmpty then [] else [("roles", roles.toJson)]) =
        .ok ⟨some name, versions, defaultVersion, some store, roles⟩ := by
    cases empty : roles.isEmpty with
    | true =>
        rw [RoleMap.eq_empty_of_isEmpty empty]
        rfl
    | false => exact Json.readFields_cons (Draft.put_roles _ roles) []
  have upToDefault := (Json.readFields_append named _).trans defaulted
  have upToStore := (Json.readFields_append upToDefault _).trans stored
  have whole := (Json.readFields_append upToStore _).trans granted
  rw [toJson, ofJson, whole]
  rfl

/-- Just those facts are read as they were written of which no property of the data store is taken
for the backend. -/
theorem ofJson_toJson_iff {info : EntityInfo} :
    ofJson info.toJson = .ok info ↔ info.dataStore.KeepsApart :=
  ⟨keepsApart_of_ofJson, ofJson_of_keepsApart⟩

/-- Whatever form entity facts are read from, they are read again from the form in which they are
written. -/
theorem ofJson_toJson_of_ofJson {value : Json} {info : EntityInfo} (read : ofJson value = .ok info) :
    ofJson info.toJson = .ok info :=
  ofJson_toJson_iff.2 (keepsApart_of_ofJson read)

/-- Facts as a row: versions out of order and repeated, no default version, a backend between other
properties, a role without operations, and one with an operation without paths. -/
def orderRow : Json :=
  .array [
    .string "Order",
    .ofTexts ["1.1.0", "1.0.0", "1.1.0"],
    .null,
    .object [("shards", .number (.ofUInt64 4)), ("backend", .string "mongo"), ("tags", .array [])],
    .object [
      ("reader", .object [("find", .array [])]),
      ("auditor", .object []),
      ("writer", .object [("update", .ofTexts ["Order"]), ("insert", .ofTexts ["Order", "Order"])])]]

def order : EntityInfo where
  name := "Order"
  versions := .ofTexts ["1.0.0", "1.1.0"]
  defaultVersion := none
  dataStore := ⟨"mongo", [("shards", .number (.ofUInt64 4)), ("tags", .array [])]⟩
  roles := ⟨.ofList [
    ("auditor", ∅),
    ("reader", .ofList [(.find, [])]),
    ("writer", .ofList [(.insert, ["Order", "Order"]), (.update, ["Order"])])]⟩

theorem order_read_again :
    ofJson orderRow = .ok order ∧ ofJson order.toJson = .ok order := by
  have read : ofJson orderRow = .ok order := rfl
  exact ⟨read, ofJson_toJson_of_ofJson read⟩

end EntityInfo
end Schemata

import Schemata.Entity.Schema
import Schemata.Proofs.SortedMap

/-!
# Paths in role maps

What the paths of a role and an operation are after something is added to a role map. All additions
put paths behind those that are there, so that going through some items adds what the items add,
one after the other.
-/
namespace Schemata

namespace SortedMap

variable {κ α β : Type} [DecidableEq κ] [LT κ] [Std.Irrefl (α := κ) (· < ·)]

/-- Of all entries only that of a key itself gives anything for the key. -/
theorem flatMap_entries_eq (map : SortedMap κ α) (key : κ) (given : α → List β) :
    (map.entries.flatMap fun entry => if key = entry.1 then given entry.2 else []) =
      ((map.find? key).map given).getD [] := by
  obtain ⟨entries, sorted⟩ := map
  show _ = ((entries.lookup key).map given).getD []
  induction entries with
  | nil => rfl
  | cons first rest hypothesis =>
      rw [List.pairwise_cons] at sorted
      have later := hypothesis sorted.2
      rw [List.flatMap_cons, lookup_cons_eq]
      by_cases atFirst : key = first.1
      · have nothing :
            (rest.flatMap fun entry => if key = entry.1 then given entry.2 else []) = [] := by
          rw [List.flatMap_eq_nil_iff]
          intro entry listed
          have above := sorted.1 entry listed
          have differs : key ≠ entry.1 := by
            intro same
            rw [← same, ← atFirst] at above
            exact Std.Irrefl.irrefl key above
          rw [if_neg differs]
        rw [nothing]
        simp [atFirst]
      · rw [later]
        simp [atFirst]

end SortedMap

instance : Std.Irrefl (α := Operation) (· < ·) :=
  ⟨fun operation => Nat.lt_irrefl operation.rank⟩

instance : Std.Asymm (α := Operation) (· < ·) :=
  ⟨fun _ _ below => Nat.lt_asymm below⟩

namespace RoleMap

variable {role : String} {operation : Operation}

@[simp]
theorem paths_empty (role : String) (operation : Operation) :
    (∅ : RoleMap).paths role operation = [] :=
  rfl

/-- What is kept for a role and an operation, if there is a place for it. The place may be empty. -/
def bucket? (map : RoleMap) (role : String) (operation : Operation) : Option (List String) :=
  (map.operations? role).bind fun operations => operations.find? operation

private theorem paths_eq_getD_bucket? (map : RoleMap) (role : String) (operation : Operation) :
    map.paths role operation = (map.bucket? role operation).getD [] :=
  rfl

theorem bucket?_addPath
    (map : RoleMap) (other : String) (added : Operation) (path : String) :
    (map.addPath other added path).bucket? role operation =
      if role = other ∧ operation = added then some (map.paths role operation ++ [path])
      else map.bucket? role operation := by
  unfold bucket? paths addPath operations?
  rw [SortedMap.find?_insert]
  by_cases sameRole : role = other
  · subst sameRole
    rw [if_pos rfl, Option.bind_some, SortedMap.find?_insert]
    by_cases sameOperation : operation = added
    · subst sameOperation
      cases map.grants.find? role <;> simp
    · cases map.grants.find? role <;> simp [sameOperation]
  · simp [sameRole]

theorem paths_addPath
    (map : RoleMap) (other : String) (added : Operation) (path : String) :
    (map.addPath other added path).paths role operation =
      map.paths role operation ++ if role = other ∧ operation = added then [path] else [] := by
  rw [paths_eq_getD_bucket?, bucket?_addPath]
  split
  · rfl
  · rw [List.append_nil, paths_eq_getD_bucket?]

/-- If every step adds paths behind those that are there, so do all steps together. -/
theorem paths_foldl
    {α : Type} {step : RoleMap → α → RoleMap} {added : α → List String}
    (each : ∀ map item,
      (step map item).paths role operation = map.paths role operation ++ added item)
    (items : List α) (map : RoleMap) :
    (items.foldl step map).paths role operation =
      map.paths role operation ++ items.flatMap added := by
  induction items generalizing map with
  | nil => simp
  | cons item rest hypothesis =>
      rw [List.foldl_cons, hypothesis, each, List.append_assoc, List.flatMap_cons]

private theorem flatMap_eq_replicate_count (roles : List String) (role path : String) :
    (roles.flatMap fun other => if role = other then [path] else []) =
      List.replicate (roles.count role) path := by
  induction roles with
  | nil => rfl
  | cons first rest hypothesis =>
      rw [List.flatMap_cons, hypothesis]
      by_cases atFirst : role = first
      · subst atFirst
        rw [if_pos rfl, List.count_cons_self, List.replicate_succ]
        rfl
      · rw [if_neg atFirst, List.count_cons_of_ne (Ne.symm atFirst)]
        rfl

/-- A path is added once for every time that the role is among those it is added for. -/
theorem paths_add
    (map : RoleMap) (roles : List String) (added : Operation) (path : String) :
    (map.add roles added path).paths role operation =
      map.paths role operation ++
        if operation = added then List.replicate (roles.count role) path else [] := by
  rw [add, paths_foldl fun map other => paths_addPath map other added path]
  by_cases sameOperation : operation = added
  · simp [sameOperation, flatMap_eq_replicate_count]
  · simp [sameOperation]

private theorem paths_addPaths
    (map : RoleMap) (other : String) (added : Operation) (paths : List String) :
    (map.addPaths other added paths).paths role operation =
      map.paths role operation ++ if role = other ∧ operation = added then paths else [] := by
  rw [addPaths, paths_foldl fun map path => paths_addPath map other added path]
  split <;> simp

/-- Merging puts the paths of the second map behind those of the first. -/
theorem paths_merge (map other : RoleMap) (role : String) (operation : Operation) :
    (map.merge other).paths role operation =
      map.paths role operation ++ other.paths role operation := by
  have entryAdds (grant : String × SortedMap Operation (List String)) (map : RoleMap) :
      (grant.2.entries.foldl
          (fun map entry => map.addPaths grant.1 entry.1 entry.2) map).paths role operation =
        map.paths role operation ++
          if role = grant.1 then (grant.2.find? operation).getD [] else [] := by
    rw [paths_foldl fun map entry => paths_addPaths map grant.1 entry.1 entry.2]
    by_cases sameRole : role = grant.1
    · have given := grant.2.flatMap_entries_eq operation (fun paths => paths)
      simp [sameRole, given]
    · simp [sameRole]
  have given := other.grants.flatMap_entries_eq role
    fun operations => (operations.find? operation).getD []
  have told :
      other.paths role operation =
        ((other.grants.find? role).map fun operations =>
          (operations.find? operation).getD []).getD [] := by
    unfold paths operations?
    cases other.grants.find? role <;> rfl
  rw [merge, paths_foldl fun map grant => entryAdds grant map, given, told]

end RoleMap

/-- How many times a role is granted an operation. -/
def Access.times (access : Access) (role : String) (operation : Operation) : Nat :=
  ((access.find? operation).getD []).count role

/-- How many times a role is granted an operation on the field at a place. -/
def FieldTree.times
    (tree : FieldTree) (id : NodeId) (role : String) (operation : Operation) : Nat :=
  ((tree.node? id).map fun node => node.access.times role operation).getD 0

namespace EntitySchema

variable {role : String} {operation : Operation}

/-- The paths that a schema grants to a role for an operation: the entity itself, then its fields
in the order in which they were added, each as often as it is granted. -/
def grantedPaths
    (entity : String) (schema : EntitySchema) (role : String) (operation : Operation) :
    List String :=
  List.replicate (schema.access.times role operation) entity ++
    schema.fields.fields.flatMap fun id =>
      List.replicate (schema.fields.times id role operation)
        (entity ++ "." ++ (schema.fields.fullPath id).render)

private theorem paths_addGrants (path : String) (access : Access) (map : RoleMap) :
    (addGrants path access map).paths role operation =
      map.paths role operation ++ List.replicate (access.times role operation) path := by
  rw [addGrants, RoleMap.paths_foldl fun map entry =>
    RoleMap.paths_add map entry.2 entry.1 path]
  have given := access.flatMap_entries_eq operation
    fun roles => List.replicate (roles.count role) path
  rw [given, Access.times]
  cases access.find? operation <;> simp

private theorem paths_addFieldGrants
    (entity : String) (tree : FieldTree) (map : RoleMap) (id : NodeId) :
    (addFieldGrants entity tree map id).paths role operation =
      map.paths role operation ++
        List.replicate (tree.times id role operation)
          (entity ++ "." ++ (tree.fullPath id).render) := by
  unfold addFieldGrants FieldTree.times
  cases tree.node? id with
  | none => simp
  | some node =>
      cases empty : node.access.isEmpty with
      | true =>
          have nothing := SortedMap.isEmpty_iff_find?.1 empty operation
          simp [Access.times, empty, nothing]
      | false => simp [empty, paths_addGrants, grantPath]

theorem paths_roles
    (entity : String) (schema : EntitySchema) (role : String) (operation : Operation) :
    (schema.roles entity).paths role operation =
      schema.grantedPaths entity role operation := by
  rw [roles, RoleMap.paths_foldl (paths_addFieldGrants entity schema.fields), paths_addGrants]
  rfl

end EntitySchema
end Schemata

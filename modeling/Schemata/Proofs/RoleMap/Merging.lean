import Schemata.Proofs.RoleMap

/-!
# Merging role maps

Merging puts the paths of one role map behind those of another one. A map that comes from another
one by additions is told by its paths, so that merges are compared path by path, although maps may
have empty places which a merge does not bring along. A map that was built by additions lists what
was added in the order of its keys, and a merge adds it once more in that order.
-/
namespace Schemata

section Rows

variable {α κ : Type} {upTo : α → α → Bool}

/-- Items that may all stand before each other are in the sorted row as they were. -/
theorem filter_mergeSort
    (trans : ∀ left middle right, upTo left middle → upTo middle right → upTo left right)
    (total : ∀ left right, upTo left right || upTo right left)
    {kept : α → Bool} (alike : ∀ left right, kept left → kept right → upTo left right)
    (items : List α) :
    (items.mergeSort upTo).filter kept = items.filter kept := by
  have ordered : (items.filter kept).Pairwise fun left right => upTo left right := by
    apply List.pairwise_of_forall_mem_list
    intro left leftListed right rightListed
    exact alike left right (List.mem_filter.1 leftListed).2 (List.mem_filter.1 rightListed).2
  have within : (items.filter kept).Sublist ((items.mergeSort upTo).filter kept) := by
    have sorted := (List.sublist_mergeSort trans total ordered List.filter_sublist).filter kept
    simpa [List.filter_filter] using sorted
  have sameLength : (items.filter kept).length = ((items.mergeSort upTo).filter kept).length :=
    ((List.mergeSort_perm items upTo).filter kept).length_eq.symm
  exact (within.eq_of_length sameLength).symm

/-- Two rows in order are one row if each key has the same row of items in both. -/
theorem eq_of_filter_key_eq [DecidableEq κ] {key : α → κ}
    (antisymm : ∀ left right, upTo left right → upTo right left → key left = key right)
    {left right : List α}
    (leftOrdered : left.Pairwise fun first second => upTo first second)
    (rightOrdered : right.Pairwise fun first second => upTo first second)
    (same : ∀ sought,
      (left.filter fun item => key item = sought) = right.filter fun item => key item = sought) :
    left = right := by
  induction left generalizing right with
  | nil =>
      cases right with
      | nil => rfl
      | cons other more => simpa using same (key other)
  | cons first rest hypothesis =>
      cases right with
      | nil => simpa using same (key first)
      | cons other more =>
          have listed (item : α) : item ∈ first :: rest ↔ item ∈ other :: more := by
            have alike := congrArg (item ∈ ·) (same (key item))
            simpa only [List.mem_filter, decide_true, and_true, eq_iff_iff] using alike
          rw [List.pairwise_cons] at leftOrdered rightOrdered
          have sameKey : key first = key other := by
            rcases List.mem_cons.1 ((listed first).1 List.mem_cons_self) with atFront | later
            · rw [atFront]
            · rcases List.mem_cons.1 ((listed other).2 List.mem_cons_self) with atFront | laterToo
              · rw [atFront]
              · exact antisymm first other (leftOrdered.1 other laterToo)
                  (rightOrdered.1 first later)
          have sameFirst : first = other := by
            have fronts := same (key first)
            rw [List.filter_cons_of_pos (by simp),
              List.filter_cons_of_pos (by simp [sameKey])] at fronts
            exact (List.cons.inj fronts).1
          subst sameFirst
          have sameRest : rest = more := by
            apply hypothesis leftOrdered.2 rightOrdered.2
            intro sought
            have fronts := same sought
            rw [List.filter_cons, List.filter_cons] at fronts
            split at fronts
            · exact (List.cons.inj fronts).2
            · exact fronts
          rw [sameRest]

end Rows

namespace RoleMap

variable {role : String} {operation : Operation}

/-! ## Roles and buckets -/

private theorem mem_roles_iff {map : RoleMap} :
    role ∈ map.roles ↔ map.grants.contains role = true :=
  SortedMap.mem_keys_iff

private theorem mem_roles_addPath
    (map : RoleMap) (other : String) (added : Operation) (path : String) :
    role ∈ (map.addPath other added path).roles ↔ role = other ∨ role ∈ map.roles := by
  rw [mem_roles_iff, mem_roles_iff]
  exact SortedMap.contains_insert map.grants _

private theorem mem_roles_of_paths_ne_nil {map : RoleMap}
    (granted : map.paths role operation ≠ []) :
    role ∈ map.roles := by
  rw [mem_roles_iff, SortedMap.contains, Option.isSome_iff_ne_none]
  intro absent
  apply granted
  rw [paths, operations?, absent]
  rfl

/-- Two maps that have the same roles and the same buckets are the same map. -/
theorem ext_bucket? {left right : RoleMap}
    (sameRoles : ∀ role, role ∈ left.roles ↔ role ∈ right.roles)
    (sameBuckets : ∀ role operation, left.bucket? role operation = right.bucket? role operation) :
    left = right := by
  obtain ⟨leftGrants⟩ := left
  obtain ⟨rightGrants⟩ := right
  congr 1
  apply SortedMap.ext_find?
  intro role
  have present := sameRoles role
  have alike := sameBuckets role
  rw [mem_roles_iff, mem_roles_iff] at present
  unfold SortedMap.contains at present
  unfold bucket? operations? at alike
  dsimp only at present alike
  cases leftFound : leftGrants.find? role with
  | none =>
      cases rightFound : rightGrants.find? role with
      | none => rfl
      | some rightOperations => simp [leftFound, rightFound] at present
  | some leftOperations =>
      cases rightFound : rightGrants.find? role with
      | none => simp [leftFound, rightFound] at present
      | some rightOperations =>
          rw [leftFound, rightFound] at alike
          exact congrArg some (SortedMap.ext_find? alike)

/-- A map that comes from another one by additions. The paths that were there stay in front; a
bucket is another one only with more paths, and a role is new only with such a bucket. -/
structure Extends (map later : RoleMap) : Prop where
  grown : ∀ role operation, map.paths role operation <+: later.paths role operation
  bucket : ∀ role operation,
    later.bucket? role operation =
      if later.paths role operation = map.paths role operation then map.bucket? role operation
      else some (later.paths role operation)
  present : ∀ role,
    role ∈ later.roles ↔
      role ∈ map.roles ∨ ∃ operation, later.paths role operation ≠ map.paths role operation

namespace Extends

variable {map middle later : RoleMap}

theorem refl (map : RoleMap) : Extends map map where
  grown _ _ := List.prefix_rfl
  bucket _ _ := (if_pos rfl).symm
  present _ := by simp

/-- Paths that are the same in the end have been the same in between. -/
theorem paths_eq_iff
    (first : Extends map middle) (second : Extends middle later)
    (role : String) (operation : Operation) :
    later.paths role operation = map.paths role operation ↔
      middle.paths role operation = map.paths role operation ∧
        later.paths role operation = middle.paths role operation := by
  constructor
  · intro same
    have notLonger := (second.grown role operation).length_le
    rw [same] at notLonger
    have kept := (first.grown role operation).eq_of_length_le notLonger
    exact ⟨kept.symm, same.trans kept⟩
  · rintro ⟨kept, keptAgain⟩
    exact keptAgain.trans kept

theorem trans (first : Extends map middle) (second : Extends middle later) :
    Extends map later where
  grown role operation := (first.grown role operation).trans (second.grown role operation)
  bucket role operation := by
    have both := first.paths_eq_iff second role operation
    by_cases same : later.paths role operation = map.paths role operation
    · obtain ⟨kept, keptAgain⟩ := both.1 same
      rw [second.bucket, if_pos keptAgain, first.bucket, if_pos kept, if_pos same]
    · rw [second.bucket, if_neg same]
      split
      · next keptAgain =>
          have added : middle.paths role operation ≠ map.paths role operation :=
            fun kept => same (both.2 ⟨kept, keptAgain⟩)
          rw [first.bucket, if_neg added, keptAgain]
      · rfl
  present role := by
    simp only [second.present role, first.present role, ne_eq, first.paths_eq_iff second role,
      Classical.not_and_iff_not_or_not, exists_or, or_assoc]

/-- If every step adds paths, so do all steps together. -/
theorem foldl {α : Type} {step : RoleMap → α → RoleMap}
    (each : ∀ map item, Extends map (step map item)) (items : List α) (map : RoleMap) :
    Extends map (items.foldl step map) := by
  induction items generalizing map with
  | nil => exact refl map
  | cons item rest hypothesis => exact (each map item).trans (hypothesis (step map item))

/-- Of the maps that come from one map by additions, no two have the same paths. -/
theorem eq_of_paths_eq {left right : RoleMap}
    (toLeft : Extends map left) (toRight : Extends map right)
    (same : ∀ role operation, left.paths role operation = right.paths role operation) :
    left = right := by
  apply ext_bucket?
  · intro role
    simp only [toLeft.present role, toRight.present role, same role]
  · intro role operation
    rw [toLeft.bucket, toRight.bucket, same role operation]

end Extends

private theorem extends_addPath (map : RoleMap) (other : String) (added : Operation)
    (path : String) :
    Extends map (map.addPath other added path) where
  grown role operation := by
    rw [paths_addPath]
    exact List.prefix_append _ _
  bucket role operation := by
    rw [paths_addPath, bucket?_addPath]
    by_cases here : role = other ∧ operation = added <;> simp [here]
  present role := by
    simp [mem_roles_addPath, paths_addPath, or_comm]

private theorem extends_merge (map other : RoleMap) : Extends map (map.merge other) := by
  apply Extends.foldl
  intro map grant
  apply Extends.foldl
  intro map entry
  exact Extends.foldl (fun map path => extends_addPath map grant.1 entry.1 path) entry.2 map

/-- A merge brings the roles that have a path along, and no others. -/
theorem mem_roles_merge {map other : RoleMap} :
    role ∈ (map.merge other).roles ↔
      role ∈ map.roles ∨ role ∈ other.roles ∧ ∃ operation, other.paths role operation ≠ [] := by
  rw [(extends_merge map other).present role]
  apply or_congr_right
  constructor
  · rintro ⟨operation, added⟩
    have granted : other.paths role operation ≠ [] := by
      intro nothing
      rw [paths_merge, nothing, List.append_nil] at added
      exact added rfl
    exact ⟨mem_roles_of_paths_ne_nil granted, operation, granted⟩
  · rintro ⟨_, operation, granted⟩
    refine ⟨operation, ?_⟩
    rw [paths_merge]
    exact fun same => granted (List.self_eq_append_right.1 same.symm)

/-- A role for which there is nothing but an empty place is left behind. -/
example :
    let other : RoleMap := ⟨.ofList [("clerk", .ofList [(.find, [])])]⟩
    other.roles = ["clerk"] ∧ (merge ∅ other).roles = [] := by
  decide

private theorem merge_assoc (map other third : RoleMap) :
    (map.merge other).merge third = map.merge (other.merge third) := by
  have twice : Extends map ((map.merge other).merge third) :=
    (extends_merge map other).trans (extends_merge (map.merge other) third)
  apply twice.eq_of_paths_eq (extends_merge map (other.merge third))
  intro role operation
  rw [paths_merge, paths_merge, paths_merge, paths_merge, List.append_assoc]

structure Entry where
  role : String
  operation : Operation
  path : String
deriving DecidableEq

namespace Entry

def key (entry : Entry) : String × Operation :=
  (entry.role, entry.operation)

/-- Whether an entry may stand before another one in the order of maps: from role to role, and for
each role from operation to operation. -/
def upTo (left right : Entry) : Bool :=
  left.role < right.role ∨ left.role = right.role ∧ left.operation.rank ≤ right.operation.rank

variable {left right : Entry}

private theorem key_eq_iff {entry : Entry} :
    entry.key = (role, operation) ↔ role = entry.role ∧ operation = entry.operation := by
  rw [key, Prod.mk.injEq]
  exact and_congr eq_comm eq_comm

private theorem upTo_iff :
    left.upTo right = true ↔
      left.role < right.role ∨
        left.role = right.role ∧ left.operation.rank ≤ right.operation.rank :=
  decide_eq_true_iff

private theorem upTo_of_key_eq (same : left.key = right.key) : left.upTo right = true := by
  rw [key, key, Prod.mk.injEq] at same
  rw [upTo_iff, same.2]
  exact Or.inr ⟨same.1, Nat.le_refl _⟩

private theorem upTo_trans (left middle right : Entry)
    (first : left.upTo middle = true) (second : middle.upTo right = true) :
    left.upTo right = true := by
  rw [upTo_iff] at first second ⊢
  rcases first with below | ⟨sameRole, notAbove⟩
  · rcases second with belowAgain | ⟨sameRole, _⟩
    · exact Or.inl (String.lt_trans below belowAgain)
    · exact Or.inl (sameRole ▸ below)
  · rcases second with below | ⟨sameRoleAgain, notAboveAgain⟩
    · exact Or.inl (sameRole ▸ below)
    · exact Or.inr ⟨sameRole.trans sameRoleAgain, Nat.le_trans notAbove notAboveAgain⟩

private theorem upTo_total (left right : Entry) : (left.upTo right || right.upTo left) = true := by
  rw [Bool.or_eq_true, upTo_iff, upTo_iff]
  by_cases below : left.role < right.role
  · exact Or.inl (Or.inl below)
  · by_cases above : right.role < left.role
    · exact Or.inr (Or.inl above)
    · have sameRole : left.role = right.role :=
        Std.Trichotomous.trichotomous (r := (· < ·)) left.role right.role below above
      rcases Nat.le_total left.operation.rank right.operation.rank with notAbove | notBelow
      · exact Or.inl (Or.inr ⟨sameRole, notAbove⟩)
      · exact Or.inr (Or.inr ⟨sameRole.symm, notBelow⟩)

private theorem upTo_antisymm (left right : Entry)
    (first : left.upTo right = true) (second : right.upTo left = true) :
    left.key = right.key := by
  rw [upTo_iff] at first second
  rcases first with below | ⟨sameRole, notAbove⟩
  · rcases second with above | ⟨sameRole, _⟩
    · exact absurd above (String.lt_asymm below)
    · exact absurd below (sameRole ▸ String.lt_irrefl left.role)
  · rcases second with above | ⟨_, notBelow⟩
    · exact absurd above (sameRole ▸ String.lt_irrefl right.role)
    · have sameOperation : left.operation = right.operation :=
        Std.Trichotomous.trichotomous (r := (· < ·)) left.operation right.operation
          (Nat.not_lt.2 notBelow) (Nat.not_lt.2 notAbove)
      rw [key, key, sameRole, sameOperation]

end Entry

/-- The entries of a map, from role to role and for each role from operation to operation, with the
paths in the order in which they were added. -/
def entries (map : RoleMap) : List Entry :=
  map.grants.entries.flatMap fun grant =>
    grant.2.entries.flatMap fun bucket => bucket.2.map (Entry.mk grant.1 bucket.1)

def addEntries (map : RoleMap) (items : List Entry) : RoleMap :=
  items.foldl (fun map entry => map.add [entry.role] entry.operation entry.path) map

/-- A merge is the addition of all entries in the order in which the second map lists them. -/
theorem merge_eq_addEntries (map other : RoleMap) :
    map.merge other = map.addEntries other.entries := by
  unfold merge addEntries entries
  simp only [List.foldl_flatMap, List.foldl_map]
  rfl

private theorem pairwise_entries (map : RoleMap) :
    map.entries.Pairwise fun left right => left.upTo right := by
  rw [entries, List.pairwise_flatMap]
  constructor
  · intro grant _
    rw [List.pairwise_flatMap]
    constructor
    · intro bucket _
      apply List.pairwise_of_forall_mem_list
      intro left leftListed right rightListed
      obtain ⟨_, _, rfl⟩ := List.mem_map.1 leftListed
      obtain ⟨_, _, rfl⟩ := List.mem_map.1 rightListed
      exact Entry.upTo_of_key_eq rfl
    · apply grant.2.sorted.imp
      intro first second below left leftListed right rightListed
      obtain ⟨_, _, rfl⟩ := List.mem_map.1 leftListed
      obtain ⟨_, _, rfl⟩ := List.mem_map.1 rightListed
      exact Entry.upTo_iff.2 (Or.inr ⟨rfl, Nat.le_of_lt below⟩)
  · apply map.grants.sorted.imp
    intro first second below left leftListed right rightListed
    obtain ⟨_, _, leftPath⟩ := List.mem_flatMap.1 leftListed
    obtain ⟨_, _, rightPath⟩ := List.mem_flatMap.1 rightListed
    obtain ⟨_, _, rfl⟩ := List.mem_map.1 leftPath
    obtain ⟨_, _, rfl⟩ := List.mem_map.1 rightPath
    exact Entry.upTo_iff.2 (Or.inl below)

/-- The entries of one bucket have one key, so that all of them have a given key or none has. -/
theorem filter_map_mk (other : String) (added : Operation) (paths : List String) :
    ((paths.map (Entry.mk other added)).filter fun entry => entry.key = (role, operation)) =
      if role = other ∧ operation = added then paths.map (Entry.mk role operation) else [] := by
  by_cases here : role = other ∧ operation = added
  · obtain ⟨rfl, rfl⟩ := here
    rw [if_pos ⟨rfl, rfl⟩, List.filter_eq_self]
    simp [Entry.key]
  · rw [if_neg here, List.filter_eq_nil_iff]
    intro entry listed
    obtain ⟨_, _, rfl⟩ := List.mem_map.1 listed
    simpa only [decide_eq_true_iff, Entry.key_eq_iff] using here

private theorem filter_entries (map : RoleMap) (role : String) (operation : Operation) :
    (map.entries.filter fun entry => entry.key = (role, operation)) =
      (map.paths role operation).map (Entry.mk role operation) := by
  have ofGrant (grant : String × SortedMap Operation (List String)) :
      (grant.2.entries.flatMap fun bucket =>
          (bucket.2.map (Entry.mk grant.1 bucket.1)).filter
            fun entry => entry.key = (role, operation)) =
        if role = grant.1 then
          ((grant.2.find? operation).getD []).map (Entry.mk role operation)
        else [] := by
    simp only [filter_map_mk]
    by_cases sameRole : role = grant.1
    · have given := grant.2.flatMap_entries_eq operation fun paths =>
        paths.map (Entry.mk role operation)
      simp only [sameRole, true_and, if_true] at given ⊢
      rw [given]
      cases grant.2.find? operation <;> rfl
    · simp [sameRole]
  have given := map.grants.flatMap_entries_eq role fun operations =>
    ((operations.find? operation).getD []).map (Entry.mk role operation)
  simp only [entries, List.filter_flatMap, ofGrant, given]
  unfold paths operations?
  cases map.grants.find? role <;> rfl

/-- Added entries are found under their keys, behind what was there. -/
theorem map_paths_addEntries
    (map : RoleMap) (items : List Entry) (role : String) (operation : Operation) :
    ((map.addEntries items).paths role operation).map (Entry.mk role operation) =
      (map.paths role operation).map (Entry.mk role operation) ++
        items.filter fun entry => entry.key = (role, operation) := by
  induction items generalizing map with
  | nil => simp [addEntries]
  | cons first rest hypothesis =>
      have step :
          map.addEntries (first :: rest) =
            (map.addPath first.role first.operation first.path).addEntries rest :=
        rfl
      rw [step, hypothesis, paths_addPath, List.map_append, List.append_assoc, List.filter_cons]
      by_cases here : first.key = (role, operation)
      · obtain ⟨rfl, rfl⟩ := Entry.key_eq_iff.1 here
        simp [here]
      · have elsewhere : ¬ (role = first.role ∧ operation = first.operation) :=
          fun same => here (Entry.key_eq_iff.2 same)
        simp [here, elsewhere]

/-! ## Maps built by additions -/

/-- A path that is to be added for some roles and an operation. -/
structure Addition where
  roles : List String
  operation : Operation
  path : String

def Addition.entries (addition : Addition) : List Entry :=
  addition.roles.map fun role => ⟨role, addition.operation, addition.path⟩

def addAll (map : RoleMap) (additions : List Addition) : RoleMap :=
  additions.foldl
    (fun map addition => map.add addition.roles addition.operation addition.path) map

/-- What some additions add, grouped by role and operation in the order of maps. In each group the
entries are in the order in which they were added. -/
def grouped (additions : List Addition) : List Entry :=
  (additions.flatMap Addition.entries).mergeSort Entry.upTo

private theorem addAll_eq_addEntries (map : RoleMap) (additions : List Addition) :
    map.addAll additions = map.addEntries (additions.flatMap Addition.entries) := by
  unfold addAll addEntries Addition.entries
  simp only [List.foldl_flatMap, List.foldl_map]
  rfl

/-- A map that was built by additions lists what was added in groups. -/
theorem entries_addAll (additions : List Addition) :
    ((∅ : RoleMap).addAll additions).entries = grouped additions := by
  have sorted :
      (grouped additions).Pairwise fun left right => left.upTo right :=
    List.pairwise_mergeSort Entry.upTo_trans Entry.upTo_total _
  apply eq_of_filter_key_eq Entry.upTo_antisymm (pairwise_entries _) sorted
  rintro ⟨role, operation⟩
  have alike (left right : Entry)
      (leftHere : decide (left.key = (role, operation)) = true)
      (rightHere : decide (right.key = (role, operation)) = true) : left.upTo right = true :=
    Entry.upTo_of_key_eq ((of_decide_eq_true leftHere).trans (of_decide_eq_true rightHere).symm)
  rw [filter_entries, addAll_eq_addEntries, map_paths_addEntries, paths_empty, List.map_nil,
    List.nil_append, grouped, filter_mergeSort Entry.upTo_trans Entry.upTo_total alike]

example :
    ((∅ : RoleMap).addAll
        [⟨["clerk", "admin"], .update, "Order"⟩, ⟨["admin"], .find, "Order.id"⟩]).entries =
      [⟨"admin", .find, "Order.id"⟩, ⟨"admin", .update, "Order"⟩, ⟨"clerk", .update, "Order"⟩] := by
  decide

/-- After a merge the paths of a role and an operation are those of the first map, followed by those
of the second one, with every repetition. The roles are those of the first map, and those of the
second one that have a path. Of three maps it does not matter which two are merged first. A map that
was built by additions lists what they add grouped by role and operation, and merging it is adding
this to the first map entry by entry. -/
theorem merging_is_concatenation (map other third : RoleMap) (additions : List Addition) :
    (∀ role operation,
      (map.merge other).paths role operation =
        map.paths role operation ++ other.paths role operation) ∧
      (∀ role,
        role ∈ (map.merge other).roles ↔
          role ∈ map.roles ∨
            role ∈ other.roles ∧ ∃ operation, other.paths role operation ≠ []) ∧
      (map.merge other).merge third = map.merge (other.merge third) ∧
      ((∅ : RoleMap).addAll additions).entries = grouped additions ∧
      map.merge ((∅ : RoleMap).addAll additions) = map.addEntries (grouped additions) := by
  refine ⟨paths_merge map other, fun role => mem_roles_merge, merge_assoc map other third,
    entries_addAll additions, ?_⟩
  rw [merge_eq_addEntries, entries_addAll]

end RoleMap
end Schemata

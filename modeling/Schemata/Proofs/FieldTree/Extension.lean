import Mathlib.Data.List.Find
import Schemata.Proofs.FieldTree.Keeps
import Schemata.Proofs.FieldTree.Paths

/-!
# Trees that extend others

A tree that grows extends what it was: nodes keep their places, names and parents, and whatever
children they gain stand behind all nodes of the tree before. So no path that leads to a node comes
to lead elsewhere, and what a path leads to only later is new.
-/
namespace Schemata

theorem FieldNode.exists_shape_of_isObject {node : FieldNode} (object : node.isObject = true) :
    ∃ children, node.shape = .object children := by
  unfold FieldNode.isObject at object
  split at object
  · next children shape => exact ⟨children, shape⟩
  · cases object

namespace FieldTree

open Attempt

variable {tree between later : FieldTree} {id place parent child : NodeId} {name segment : String}

private theorem contains_iff_lt_size : tree.contains id = true ↔ id < tree.size := by
  rw [contains, Option.isSome_iff_exists]
  exact ⟨fun ⟨_, found⟩ => lt_size_of_node? found, exists_node_of_lt_size⟩

theorem WellFormed.lt_size_of_resolve?
    (wellFormed : tree.WellFormed) {path : Path} (resolved : tree.resolve? path = some id) :
    id < tree.size :=
  contains_iff_lt_size.1 (wellFormed.contains_of_resolve? resolved)

/-- The nodes of one tree stand in the other one at their places, under their names and parents, and
objects and arrays are still such. Nodes may have more children, but only new ones and behind the
old ones. -/
structure Extends (tree later : FieldTree) : Prop where
  parents : ∀ id, id < tree.size → later.parent? id = tree.parent? id
  names : ∀ id, id < tree.size → later.name? id = tree.name? id
  objects : ∀ id, id < tree.size → later.hasObject id = tree.hasObject id
  elements : ∀ id, id < tree.size → later.element? id = tree.element? id
  children :
    ∀ id, id < tree.size →
      ∃ gained, later.children id = tree.children id ++ gained ∧ ∀ child ∈ gained, tree.size ≤ child

namespace Extends

theorem refl (tree : FieldTree) : tree.Extends tree where
  parents _ _ := rfl
  names _ _ := rfl
  objects _ _ := rfl
  elements _ _ := rfl
  children _ _ := ⟨[], by simp⟩

theorem size_le (grown : tree.Extends later) : tree.size ≤ later.size := by
  by_contra smaller
  have inside : later.size < tree.size := Nat.lt_of_not_le smaller
  obtain ⟨name, named⟩ := exists_name_of_lt_size inside
  rw [← grown.names later.size inside] at named
  obtain ⟨node, found, _⟩ := Option.map_eq_some_iff.1 named
  exact Nat.lt_irrefl _ (lt_size_of_node? found)

theorem trans (first : tree.Extends between) (second : between.Extends later) :
    tree.Extends later := by
  have insideBetween (id : NodeId) (inside : id < tree.size) : id < between.size :=
    Nat.lt_of_lt_of_le inside first.size_le
  refine ⟨fun id inside => ?_, fun id inside => ?_, fun id inside => ?_, fun id inside => ?_,
    fun id inside => ?_⟩
  · exact (second.parents id (insideBetween id inside)).trans (first.parents id inside)
  · exact (second.names id (insideBetween id inside)).trans (first.names id inside)
  · exact (second.objects id (insideBetween id inside)).trans (first.objects id inside)
  · exact (second.elements id (insideBetween id inside)).trans (first.elements id inside)
  · obtain ⟨gained, listed, new⟩ := first.children id inside
    obtain ⟨more, listedAfter, newer⟩ := second.children id (insideBetween id inside)
    refine ⟨gained ++ more, by rw [listedAfter, listed, List.append_assoc], fun child found => ?_⟩
    rcases List.mem_append.1 found with early | late
    · exact new child early
    · exact Nat.le_trans first.size_le (newer child late)

section Paths

variable (grown : tree.Extends later)
include grown

private theorem fullPath_eq (linked : tree.Linked) (inside : id < tree.size) :
    later.fullPath id = tree.fullPath id := by
  induction id using Nat.strongRecOn with
  | ind id hypothesis =>
      cases known : tree.parent? id with
      | none =>
          have topAfter : later.parent? id = none := (grown.parents id inside).trans known
          rw [fullPath_of_top known, fullPath_of_top topAfter]
      | some parent =>
          have earlier := (linked.mem_children_of_parent? known).2
          obtain ⟨name, named⟩ := exists_name_of_lt_size inside
          rw [fullPath_of_parent known earlier named,
            fullPath_of_parent ((grown.parents id inside).trans known) earlier
              ((grown.names id inside).trans named),
            hypothesis parent earlier (Nat.lt_trans earlier inside)]

/-- A child is looked for among the old children first. -/
theorem exists_child?_eq (linked : tree.Linked) (inside : id < tree.size) (name : String) :
    ∃ gained : List NodeId,
      later.child? id name = (tree.child? id name).or (gained.find? (later.isNamed name)) ∧
        ∀ child ∈ gained, tree.size ≤ child := by
  obtain ⟨gained, listed, new⟩ := grown.children id inside
  refine ⟨gained, ?_, new⟩
  have sameNames (child : NodeId) (found : child ∈ tree.children id) :
      later.isNamed name child = tree.isNamed name child := by
    rw [Bool.eq_iff_iff, isNamed_iff, isNamed_iff,
      grown.names child (linked.lt_size_of_child found)]
  rw [child?, listed, List.find?_append, List.find?_congr sameNames, ← child?]

/-- A segment that leads to a node leads to it still. -/
theorem step?_of_step?
    (linked : tree.Linked) (inside : id < tree.size) (led : tree.step? id segment = some child) :
    later.step? id segment = some child := by
  rw [step?_eq_some_iff] at led ⊢
  rw [grown.objects id inside, grown.elements id inside]
  rcases led with ⟨object, plain, found⟩ | element
  · obtain ⟨gained, same, _⟩ := grown.exists_child?_eq linked inside segment
    exact Or.inl ⟨object, plain, by rw [same, found, Option.some_or]⟩
  · exact Or.inr element

/-- A segment leads from an old node where it led, or to a new node. -/
theorem step?_cases
    (linked : tree.Linked) (inside : id < tree.size) (led : later.step? id segment = some child) :
    tree.step? id segment = some child ∨ tree.size ≤ child := by
  rw [step?_eq_some_iff] at led ⊢
  rw [grown.objects id inside, grown.elements id inside] at led
  rcases led with ⟨object, plain, found⟩ | element
  · obtain ⟨gained, same, new⟩ := grown.exists_child?_eq linked inside segment
    rw [same, Option.or_eq_some_iff] at found
    rcases found with old | ⟨_, last⟩
    · exact Or.inl (Or.inl ⟨object, plain, old⟩)
    · exact Or.inr (new child (List.mem_of_find?_eq_some last))
  · exact Or.inl (Or.inr element)

/-- A path that leads to a node leads to it still. -/
theorem resolve?_of_resolve?
    (wellFormed : tree.WellFormed) {path : Path} (resolved : tree.resolve? path = some id) :
    later.resolve? path = some id := by
  obtain ⟨segments⟩ := path
  induction segments using List.reverseRecOn generalizing id with
  | nil => exact resolved
  | append_singleton segments last hypothesis =>
      have stepped := resolve?_child tree ⟨segments⟩ last
      rw [Path.child, resolved] at stepped
      obtain ⟨above, reached, led⟩ := Option.bind_eq_some_iff.1 stepped.symm
      have inside := wellFormed.lt_size_of_resolve? reached
      have steppedLater := resolve?_child later ⟨segments⟩ last
      rw [Path.child, hypothesis reached, Option.bind_some,
        grown.step?_of_step? wellFormed.toLinked inside led] at steppedLater
      exact steppedLater

/-- A path leads where it led, or to a new node. -/
theorem resolve?_cases
    (wellFormed : tree.WellFormed) (wellFormedLater : later.WellFormed) {path : Path}
    (resolved : later.resolve? path = some id) :
    tree.resolve? path = some id ∨ tree.size ≤ id := by
  obtain ⟨segments⟩ := path
  induction segments using List.reverseRecOn generalizing id with
  | nil => exact Or.inl resolved
  | append_singleton segments last hypothesis =>
      have stepped := resolve?_child later ⟨segments⟩ last
      rw [Path.child, resolved] at stepped
      obtain ⟨above, reached, led⟩ := Option.bind_eq_some_iff.1 stepped.symm
      rcases hypothesis reached with reachedBefore | new
      · have inside := wellFormed.lt_size_of_resolve? reachedBefore
        rcases grown.step?_cases wellFormed.toLinked inside led with ledBefore | new
        · have steppedBefore := resolve?_child tree ⟨segments⟩ last
          rw [Path.child, reachedBefore, Option.bind_some, ledBefore] at steppedBefore
          exact Or.inl steppedBefore
        · exact Or.inr new
      · have listed := (wellFormedLater.child_of_step? led).1
        have known := wellFormedLater.backed above id listed
        have behind := (wellFormedLater.mem_children_of_parent? known).2
        exact Or.inr (Nat.le_trans new (Nat.le_of_lt behind))

end Paths

end Extends

theorem Gains.query_eq
    {above : FieldNode} (gains : tree.Gains later parent above) {β : Type}
    (query : Option FieldNode → β)
    (unseen : query (some (addChild tree.size above)) = query (some above))
    (inside : id < tree.size) :
    query (later.node? id) = query (tree.node? id) := by
  rw [gains.old id inside]
  by_cases here : id = parent
  · rw [if_pos here, unseen, here, gains.found]
  · rw [if_neg here]

theorem Gains.extends
    {above : FieldNode} (gains : tree.Gains later parent above) : tree.Extends later where
  parents _ inside :=
    gains.query_eq (Option.bind · FieldNode.parent) (parent_addChild tree.size above) inside
  names _ inside :=
    gains.query_eq (Option.map FieldNode.name)
      (congrArg some (name_addChild tree.size above)) inside
  objects _ inside :=
    gains.query_eq (Option.any FieldNode.isObject) (isObject_addChild tree.size above) inside
  elements _ inside := by
    rw [element?_eq_bind, element?_eq_bind]
    exact gains.query_eq (Option.bind · FieldNode.element?) (element?_addChild tree.size above)
      inside
  children id inside := by
    by_cases here : id = parent
    · exact ⟨[tree.size], by rw [here, gains.children_parent], by simp⟩
    · exact ⟨[], by rw [gains.growsUnder.elsewhere id inside here, List.append_nil], by simp⟩

theorem Refines.extends
    {edit : FieldNode → FieldNode} (refines : Refines edit) (tree : FieldTree) (place : NodeId) :
    tree.Extends (tree.change place edit) where
  parents id _ := query_change (Option.bind · FieldNode.parent) refines.parent tree place id
  names id _ :=
    query_change (Option.map FieldNode.name) (fun node => congrArg some (refines.name node)) tree
      place id
  objects id _ := query_change (Option.any FieldNode.isObject) refines.isObject tree place id
  elements id _ := by
    rw [element?_eq_bind, element?_eq_bind]
    exact query_change (Option.bind · FieldNode.element?) refines.element? tree place id
  children id _ := by
    have same : (tree.change place edit).children id = tree.children id :=
      query_change (fun found => (found.map FieldNode.children).getD []) refines.children tree
        place id
    exact ⟨[], by rw [same, List.append_nil], by simp⟩

private theorem extends_grow (tree : FieldTree) (growth : Growth) :
    tree.Extends (tree.grow growth) := by
  rcases grow_cases tree growth with
    same | ⟨parent, name, shape, addable, _, grown⟩ |
      ⟨parent, name, element, addable, _, grown⟩ | ⟨id, edit, refines, grown⟩
  · rw [same]
    exact .refl tree
  · obtain ⟨above, found, object⟩ := exists_node_of_any addable.beneathObject
    rw [grown]
    exact (gains_attach found object name shape).extends
  · obtain ⟨above, found, object⟩ := exists_node_of_any addable.beneathObject
    rw [grown]
    exact (gains_attachArray found object name element).extends
  · rw [grown]
    exact refines.extends tree id

private theorem extends_growAll (tree : FieldTree) (growths : List Growth) :
    tree.Extends (tree.growAll growths) := by
  induction growths generalizing tree with
  | nil => exact .refl tree
  | cons growth rest hypothesis => exact (extends_grow tree growth).trans (hypothesis _)

/-- Whatever operations follow, a node keeps its path, and a path its node. -/
theorem WellFormed.path_growAll
    (wellFormed : tree.WellFormed) (growths : List Growth) {path : Path}
    (resolved : tree.resolve? path = some id) :
    (tree.growAll growths).resolve? path = some id ∧
      (tree.growAll growths).fullPath id = tree.fullPath id :=
  ⟨(extends_growAll tree growths).resolve?_of_resolve? wellFormed resolved,
    (extends_growAll tree growths).fullPath_eq wellFormed.toLinked
      (wellFormed.lt_size_of_resolve? resolved)⟩

/-- A tree that operations on the tree without fields have made. -/
def IsGrown (tree : FieldTree) : Prop :=
  ∃ growths, tree = empty.growAll growths

theorem IsGrown.wellFormed : tree.IsGrown → tree.WellFormed := by
  rintro ⟨growths, rfl⟩
  exact wellFormed_empty.growAll growths

/-- An object before and after it has gained a child behind all others. -/
def GainsChild (child : NodeId) (before after : NodeShape) : Prop :=
  ∃ children, before = .object children ∧ after = .object (children ++ [child])

/-- A leaf before and after it has gained a constraint behind all others. -/
def GainsConstraint (constraint : Constraint) (before after : NodeShape) : Prop :=
  ∃ type constraints,
    before = .leaf type constraints ∧ after = .leaf type (constraints ++ [constraint])

/-- What an operation at a place makes of a tree. Some nodes come to stand behind all others. Of the
old nodes only the one at the place changes, and of that only its kind; all of them have their paths
still. Paths lead to the nodes that they led to, and those that led nowhere lead to the new nodes if
they lead somewhere now. -/
structure Enlarges
    (tree later : FieldTree) (place : NodeId) (gain : NodeShape → NodeShape → Prop)
    (added : List NodeId) : Prop where
  ids : later.ids = tree.ids ++ added
  elsewhere : ∀ id, tree.contains id = true → id ≠ place → later.node? id = tree.node? id
  atPlace :
    ∃ node shape,
      tree.node? place = some node ∧ gain node.shape shape ∧
        later.node? place = some { node with shape := shape }
  fullPath : ∀ id, tree.contains id = true → later.fullPath id = tree.fullPath id
  resolved : ∀ path id, tree.resolve? path = some id → later.resolve? path = some id
  resolvedOnlyNow :
    ∀ path id, tree.resolve? path = none → later.resolve? path = some id → id ∈ added

/-- What is left to show of an operation that makes a tree an extension: what becomes of single
nodes. -/
theorem Extends.enlarges
    (grown : tree.Extends later) (wellFormed : tree.WellFormed)
    (wellFormedLater : later.WellFormed) {gain : NodeShape → NodeShape → Prop}
    {added : List NodeId} (ids : later.ids = tree.ids ++ added)
    (elsewhere : ∀ id, id < tree.size → id ≠ place → later.node? id = tree.node? id)
    (atPlace :
      ∃ node shape,
        tree.node? place = some node ∧ gain node.shape shape ∧
          later.node? place = some { node with shape := shape }) :
    tree.Enlarges later place gain added where
  ids := ids
  elsewhere id inside := elsewhere id (contains_iff_lt_size.1 inside)
  atPlace := atPlace
  fullPath id inside := grown.fullPath_eq wellFormed.toLinked (contains_iff_lt_size.1 inside)
  resolved _ _ := grown.resolve?_of_resolve? wellFormed
  resolvedOnlyNow path id nowhere resolved := by
    rcases grown.resolve?_cases wellFormed wellFormedLater resolved with before | new
    · rw [nowhere] at before
      cases before
    · have inside : id ∈ later.ids :=
        List.mem_range.2 (wellFormedLater.lt_size_of_resolve? resolved)
      rw [ids] at inside
      exact (List.mem_append.1 inside).resolve_left fun old =>
        Nat.not_lt.2 new (List.mem_range.1 old)

theorem Gains.enlarges
    {above : FieldNode} (gains : tree.Gains later parent above) (wellFormed : tree.WellFormed)
    (wellFormedLater : later.WellFormed) {added : List NodeId}
    (ids : later.ids = tree.ids ++ added) :
    tree.Enlarges later parent (GainsChild tree.size) added := by
  refine gains.extends.enlarges wellFormed wellFormedLater ids (fun id inside other => ?_) ?_
  · rw [gains.old id inside, if_neg other]
  · obtain ⟨children, shape⟩ := FieldNode.exists_shape_of_isObject gains.object
    refine ⟨above, _, gains.found, ⟨children, shape, rfl⟩, ?_⟩
    rw [gains.old parent (lt_size_of_node? gains.found), if_pos rfl, addChild, shape]

private theorem size_attachArray
    (tree : FieldTree) (owner : NodeId) (name : String) (element : NodeShape) :
    (tree.attachArray owner name element).size = tree.size + 2 := by
  rw [attachArray, attachElement, ← graft, size_graft, size_attach]

private theorem ids_of_size {count : Nat} (size : later.size = tree.size + count) :
    later.ids = tree.ids ++ List.range' tree.size count := by
  rw [ids, size, List.range_eq_range', ← List.range'_append_1, Nat.zero_add,
    ← List.range_eq_range', ← ids]

private theorem enlarges_attach
    {shape : NodeShape} (wellFormed : tree.WellFormed) (addable : tree.Addable parent name)
    (bare : Bare shape) :
    tree.Enlarges (tree.attach parent name shape) parent (GainsChild tree.size) [tree.size] := by
  obtain ⟨above, found, object⟩ := exists_node_of_any addable.beneathObject
  exact (gains_attach found object name shape).enlarges wellFormed
    (wellFormed.attach addable bare) (ids_of_size (size_attach tree parent name shape))

private theorem enlarges_attachArray
    {element : NodeShape} (wellFormed : tree.WellFormed) (addable : tree.Addable parent name)
    (bare : Bare element) :
    tree.Enlarges (tree.attachArray parent name element) parent (GainsChild tree.size)
      [tree.size, tree.size + 1] := by
  obtain ⟨above, found, object⟩ := exists_node_of_any addable.beneathObject
  exact (gains_attachArray found object name element).enlarges wellFormed
    (wellFormed.attachArray addable bare) (ids_of_size (size_attachArray tree parent name element))

private theorem enlarges_constrain
    (wellFormed : tree.WellFormed) (leaf : tree.hasLeaf id = true) (constraint : Constraint) :
    tree.Enlarges (tree.change id (constrain constraint)) id (GainsConstraint constraint) [] := by
  have refines := refines_constrain constraint
  refine (refines.extends tree id).enlarges wellFormed (wellFormed.change refines id)
    (by rw [ids, size_change, ids, List.append_nil]) (fun other _ notHere => ?_) ?_
  · rw [node?_change, if_neg notHere.symm]
  · obtain ⟨type, constraints, known⟩ := hasLeaf_iff.1 leaf
    obtain ⟨node, found, shape⟩ := Option.map_eq_some_iff.1 known
    refine ⟨node, _, found, ⟨type, constraints, shape, rfl⟩, ?_⟩
    rw [node?_change, if_pos rfl, found, Option.map_some, constrain, shape]

private theorem allOrNothing_addField
    {α : Type} {grown : FieldTree → FieldTree} {places : FieldTree → α}
    {effect : FieldTree → α → FieldTree → Prop}
    (whole : ∀ tree : FieldTree, tree.Addable parent name → effect tree (places tree) (grown tree)) :
    AllOrNothing (addField parent name grown places) effect := by
  intro tree
  rw [outcome_addField]
  cases checked : tree.checkField parent name with
  | error error => exact Or.inl ⟨error, rfl⟩
  | ok passed => exact Or.inr ⟨_, _, rfl, whole tree (checkField_eq_ok_iff.1 checked)⟩

/-- Every addition and every constraint leaves a tree as it was, if it fails, and else only enlarges
it: by a child of the node that it is at and perhaps the element of that child, or by a constraint of
the node. -/
theorem operations_enlarge_or_fail :
    (∀ parent name type,
      AllOrNothing (addLeaf parent name type) fun tree field later =>
        tree.IsGrown → tree.Enlarges later parent (GainsChild field) [field]) ∧
    (∀ parent name,
      AllOrNothing (addObject parent name) fun tree field later =>
        tree.IsGrown → tree.Enlarges later parent (GainsChild field) [field]) ∧
    (∀ parent name element,
      AllOrNothing (addArray parent name element) fun tree array later =>
        tree.IsGrown → tree.Enlarges later parent (GainsChild array) [array, array + 1]) ∧
    (∀ parent name,
      AllOrNothing (addObjectArray parent name) fun tree (array, element) later =>
        tree.IsGrown → tree.Enlarges later parent (GainsChild array) [array, element]) ∧
    ∀ id constraint,
      AllOrNothing (addConstraint id constraint) fun tree _ later =>
        tree.IsGrown → tree.Enlarges later id (GainsConstraint constraint) [] := by
  refine ⟨fun parent name type => ?_, fun parent name => ?_, fun parent name element => ?_,
    fun parent name => ?_, fun id constraint tree => ?_⟩
  · exact allOrNothing_addField fun tree addable isGrown =>
      enlarges_attach isGrown.wellFormed addable (.leaf type)
  · exact allOrNothing_addField fun tree addable isGrown =>
      enlarges_attach isGrown.wellFormed addable .object
  · exact allOrNothing_addField fun tree addable isGrown =>
      enlarges_attachArray isGrown.wellFormed addable (.leaf element)
  · exact allOrNothing_addField fun tree addable isGrown =>
      enlarges_attachArray isGrown.wellFormed addable .object
  · rw [outcome_addConstraint]
    split
    · next leaf =>
      exact Or.inr ⟨(), _, rfl, fun isGrown =>
        enlarges_constrain isGrown.wellFormed leaf constraint⟩
    · exact Or.inl ⟨_, rfl⟩

end FieldTree
end Schemata

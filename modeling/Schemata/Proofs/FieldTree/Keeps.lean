import Schemata.Proofs.FieldTree.WellFormed

/-!
# What a tree keeps while it grows

Adding a field beneath an object changes nothing of the other nodes, and of the object nothing but
its children.
-/
namespace Schemata

/-- What a node keeps when something is added beneath it. -/
structure FieldNode.Kept (node after : FieldNode) : Prop where
  name : after.name = node.name
  access : after.access = node.access
  shape :
    after.shape = node.shape ∨
      ∃ before now, node.shape = .object before ∧ after.shape = .object now

namespace FieldNode

variable {node between after : FieldNode}

theorem Kept.refl (node : FieldNode) : node.Kept node :=
  ⟨rfl, rfl, Or.inl rfl⟩

theorem Kept.trans (first : node.Kept between) (second : between.Kept after) :
    node.Kept after := by
  refine ⟨second.name.trans first.name, second.access.trans first.access, ?_⟩
  rcases first.shape with same | ⟨before, middle, object, objectBetween⟩
  · rw [← same]
    exact second.shape
  · rcases second.shape with kept | ⟨_, now, _, objectAfter⟩
    · exact Or.inr ⟨before, middle, object, kept.trans objectBetween⟩
    · exact Or.inr ⟨before, now, object, objectAfter⟩

theorem Kept.constraints (kept : node.Kept after) : after.constraints = node.constraints := by
  rcases kept.shape with same | ⟨before, now, object, objectAfter⟩
  · rw [FieldNode.constraints, same, ← FieldNode.constraints]
  · rw [FieldNode.constraints, FieldNode.constraints, object, objectAfter]

theorem Kept.element? (kept : node.Kept after) : after.element? = node.element? := by
  rcases kept.shape with same | ⟨before, now, object, objectAfter⟩
  · rw [FieldNode.element?, same, ← FieldNode.element?]
  · rw [FieldNode.element?, FieldNode.element?, object, objectAfter]

theorem Kept.isObject (kept : node.Kept after) : after.isObject = node.isObject := by
  rcases kept.shape with same | ⟨before, now, object, objectAfter⟩
  · rw [FieldNode.isObject, same, ← FieldNode.isObject]
  · rw [FieldNode.isObject, FieldNode.isObject, object, objectAfter]

private theorem kept_addChild (child : NodeId) (node : FieldNode) :
    node.Kept (FieldTree.addChild child node) := by
  obtain ⟨name, parent, shape, access⟩ := node
  cases shape with
  | object children => exact ⟨rfl, rfl, Or.inr ⟨children, children ++ [child], rfl, rfl⟩⟩
  | leaf type constraints => exact .refl _
  | array element => exact .refl _

end FieldNode

namespace FieldTree

variable {tree between later : FieldTree} {parent id : NodeId}

/-- Every node of the one tree stands at its place in the other, if maybe with other children. -/
def Keeps (tree later : FieldTree) : Prop :=
  ∀ id node, tree.node? id = some node → ∃ after, later.node? id = some after ∧ node.Kept after

theorem Keeps.refl (tree : FieldTree) : tree.Keeps tree :=
  fun _ node found => ⟨node, found, .refl node⟩

theorem Keeps.trans (first : tree.Keeps between) (second : between.Keeps later) :
    tree.Keeps later := by
  intro id node found
  obtain ⟨middle, foundBetween, kept⟩ := first id node found
  obtain ⟨after, foundAfter, keptAgain⟩ := second id middle foundBetween
  exact ⟨after, foundAfter, kept.trans keptAgain⟩

theorem Keeps.size_le (keeps : tree.Keeps later) : tree.size ≤ later.size := by
  by_contra smaller
  obtain ⟨node, found⟩ := exists_node_of_lt_size (Nat.lt_of_not_le smaller)
  obtain ⟨after, foundAfter, _⟩ := keeps later.size node found
  exact Nat.lt_irrefl _ (lt_size_of_node? foundAfter)

theorem Keeps.element? (keeps : tree.Keeps later) (inside : id < tree.size) :
    later.element? id = tree.element? id := by
  obtain ⟨node, found⟩ := exists_node_of_lt_size inside
  obtain ⟨after, foundAfter, kept⟩ := keeps id node found
  rw [element?_eq_bind, element?_eq_bind, found, foundAfter]
  exact kept.element?

theorem Keeps.hasObject (keeps : tree.Keeps later) (object : tree.hasObject id = true) :
    later.hasObject id = true := by
  obtain ⟨node, found, isObject⟩ := exists_node_of_any object
  obtain ⟨after, foundAfter, kept⟩ := keeps id node found
  rw [FieldTree.hasObject, foundAfter, Option.any_some, kept.isObject]
  exact isObject

/-- An object that gains no children keeps its shape. -/
theorem Keeps.shape?_of_children
    (keeps : tree.Keeps later) {children : List NodeId}
    (object : tree.shape? id = some (.object children))
    (same : later.children id = tree.children id) :
    later.shape? id = some (.object children) := by
  have isObject := keeps.hasObject (hasObject_iff.2 ⟨children, object⟩)
  obtain ⟨now, objectNow⟩ := hasObject_iff.1 isObject
  rw [children_of_object objectNow, children_of_object object] at same
  rw [objectNow, same]

theorem hasLeaf_change
    {edit : FieldNode → FieldNode} (refines : Refines edit) (tree : FieldTree) (id : NodeId) :
    (tree.change id edit).hasLeaf id = tree.hasLeaf id := by
  rw [hasLeaf, node?_change, if_pos rfl, hasLeaf]
  cases tree.node? id with
  | none => rfl
  | some node => exact refines.isLeaf node

/-- A refinement leaves objects as they are. -/
theorem shape?_change_of_object
    {edit : FieldNode → FieldNode} (refines : Refines edit) {children : List NodeId}
    (object : tree.shape? id = some (.object children)) (other : NodeId) :
    (tree.change other edit).shape? id = some (.object children) := by
  obtain ⟨node, found, shape⟩ := Option.map_eq_some_iff.1 object
  rw [shape?, node?_change]
  split
  · have notLeaf : node.isLeaf = false := by
      rw [FieldNode.isLeaf, shape]
    rw [found, Option.map_some, Option.map_some, refines.shape_of_not_isLeaf node notLeaf, shape]
  · exact object

/-- No node but one object has other children than before. -/
structure GrowsUnder (tree later : FieldTree) (parent : NodeId) : Prop where
  keeps : tree.Keeps later
  elsewhere : ∀ id, id < tree.size → id ≠ parent → later.children id = tree.children id

theorem GrowsUnder.refl (tree : FieldTree) (parent : NodeId) : tree.GrowsUnder tree parent :=
  ⟨.refl tree, fun _ _ _ => rfl⟩

theorem GrowsUnder.trans
    (first : tree.GrowsUnder between parent) (second : between.GrowsUnder later parent) :
    tree.GrowsUnder later parent := by
  refine ⟨first.keeps.trans second.keeps, fun id inside other => ?_⟩
  have insideBetween := Nat.lt_of_lt_of_le inside first.keeps.size_le
  rw [second.elsewhere id insideBetween other, first.elsewhere id inside other]

/-- A field and maybe its element stand behind all nodes, and the field is the last child of its
parent. -/
structure Gains (tree later : FieldTree) (parent : NodeId) (above : FieldNode) : Prop where
  found : tree.node? parent = some above
  object : above.isObject = true
  old :
    ∀ id, id < tree.size →
      later.node? id = if id = parent then some (addChild tree.size above) else tree.node? id

namespace Gains

variable {above : FieldNode}

theorem keeps (gains : tree.Gains later parent above) : tree.Keeps later := by
  intro id node found
  have old := gains.old id (lt_size_of_node? found)
  by_cases here : id = parent
  · rw [if_pos here] at old
    rw [here, gains.found] at found
    cases found
    exact ⟨_, old, FieldNode.kept_addChild tree.size above⟩
  · rw [if_neg here, found] at old
    exact ⟨node, old, .refl node⟩

theorem growsUnder (gains : tree.Gains later parent above) : tree.GrowsUnder later parent := by
  refine ⟨gains.keeps, fun id inside other => ?_⟩
  rw [children, gains.old id inside, if_neg other, ← children]

theorem children_parent (gains : tree.Gains later parent above) :
    later.children parent = tree.children parent ++ [tree.size] := by
  have inside := lt_size_of_node? gains.found
  rw [children, gains.old parent inside, if_pos rfl, children, gains.found, Option.map_some,
    Option.map_some, children_addChild gains.object]
  rfl

/-- A change of the new field alone changes nothing of the old nodes. -/
theorem change (gains : tree.Gains later parent above) (edit : FieldNode → FieldNode) :
    tree.Gains (later.change tree.size edit) parent above where
  found := gains.found
  object := gains.object
  old id inside := by
    rw [node?_change, if_neg (Nat.ne_of_gt inside), gains.old id inside]

end Gains

theorem gains_attach
    {above : FieldNode} (found : tree.node? parent = some above) (object : above.isObject = true)
    (name : String) (shape : NodeShape) :
    tree.Gains (tree.attach parent name shape) parent above where
  found := found
  object := object
  old id inside := by
    rw [node?_attach found, if_neg (Nat.ne_of_lt inside)]

theorem node?_attachArray
    {above : FieldNode} (found : tree.node? parent = some above) (name : String)
    (element : NodeShape) (id : NodeId) :
    (tree.attachArray parent name element).node? id =
      if id = tree.size + 1 then some ⟨Path.wildcard, some tree.size, element, ∅⟩
      else if id = tree.size then some ⟨name, some parent, .array (tree.size + 1), ∅⟩
      else (tree.attach parent name (.array root)).node? id := by
  have stands :
      (tree.attach parent name (.array root)).node? tree.size =
        some ⟨name, some parent, .array root, ∅⟩ := by
    rw [node?_attach found, if_pos rfl]
  have grafted :=
    query_graft (fun node? => node?) stands ⟨Path.wildcard, some tree.size, element, ∅⟩
      (fun node => { node with shape := .array (tree.size + 1) }) id
  rw [size_attach] at grafted
  rw [attachArray, attachElement, size_attach, ← graft]
  exact grafted

theorem gains_attachArray
    {above : FieldNode} (found : tree.node? parent = some above) (object : above.isObject = true)
    (name : String) (element : NodeShape) :
    tree.Gains (tree.attachArray parent name element) parent above where
  found := found
  object := object
  old id inside := by
    have notElement : id ≠ tree.size + 1 := Nat.ne_of_lt (Nat.lt_succ_of_lt inside)
    rw [node?_attachArray found, if_neg notElement, if_neg (Nat.ne_of_lt inside)]
    exact (gains_attach found object name _).old id inside

end FieldTree
end Schemata

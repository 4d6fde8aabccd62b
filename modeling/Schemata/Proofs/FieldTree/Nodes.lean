import Schemata.FieldTree.Growth

/-!
# Nodes of a grown tree

What stands at a place of a tree after a node was put behind all others or a node was changed,
and what that means for names, parents and children.
-/
namespace Schemata

def FieldNode.element? (node : FieldNode) : Option NodeId :=
  match node.shape with
  | .array element => some element
  | _ => none

theorem FieldNode.element?_of_childless {node : FieldNode} (childless : node.children = []) :
    node.element? = none := by
  unfold FieldNode.element?
  split
  · next shape => simp [FieldNode.children, shape] at childless
  · rfl

theorem FieldNode.children_of_isLeaf {node : FieldNode} (leaf : node.isLeaf = true) :
    node.children = [] := by
  unfold FieldNode.isLeaf at leaf
  split at leaf
  · next shape => simp [FieldNode.children, shape]
  · cases leaf

theorem FieldNode.isObject_of_isLeaf {node : FieldNode} (leaf : node.isLeaf = true) :
    node.isObject = false := by
  unfold FieldNode.isLeaf at leaf
  split at leaf
  · next shape => simp [FieldNode.isObject, shape]
  · cases leaf

theorem FieldNode.exists_shape_of_type? {node : FieldNode} {type : TypeRef}
    (typed : node.type? = some type) :
    ∃ constraints, node.shape = .leaf type constraints := by
  unfold FieldNode.type? at typed
  split at typed
  · next constraints shape =>
      cases typed
      exact ⟨constraints, shape⟩
  · cases typed

namespace FieldTree

def parent? (tree : FieldTree) (id : NodeId) : Option NodeId :=
  (tree.node? id).bind FieldNode.parent

def name? (tree : FieldTree) (id : NodeId) : Option String :=
  (tree.node? id).map FieldNode.name

def nameAt (tree : FieldTree) (id : NodeId) : String :=
  (tree.name? id).getD ""

def shape? (tree : FieldTree) (id : NodeId) : Option NodeShape :=
  (tree.node? id).map FieldNode.shape

def hasObject (tree : FieldTree) (id : NodeId) : Bool :=
  (tree.node? id).any FieldNode.isObject

def hasLeaf (tree : FieldTree) (id : NodeId) : Bool :=
  (tree.node? id).any FieldNode.isLeaf

theorem lt_size_of_node? {tree : FieldTree} {id : NodeId} {node : FieldNode}
    (found : tree.node? id = some node) :
    id < tree.size :=
  (Array.getElem?_eq_some_iff.1 found).1

theorem exists_node_of_lt_size {tree : FieldTree} {id : NodeId} (inside : id < tree.size) :
    ∃ node, tree.node? id = some node := by
  cases found : tree.node? id with
  | none => exact absurd inside (Nat.not_lt.2 (Array.getElem?_eq_none_iff.1 found))
  | some node => exact ⟨node, rfl⟩

theorem lt_size_of_parent? {tree : FieldTree} {id parent : NodeId}
    (known : tree.parent? id = some parent) :
    id < tree.size := by
  obtain ⟨node, found, _⟩ := Option.bind_eq_some_iff.1 known
  exact lt_size_of_node? found

theorem exists_node_of_any {tree : FieldTree} {id : NodeId} {holds : FieldNode → Bool}
    (known : (tree.node? id).any holds = true) :
    ∃ node, tree.node? id = some node ∧ holds node = true := by
  simpa [Option.any_eq_true] using known

theorem element?_eq_bind (tree : FieldTree) (id : NodeId) :
    tree.element? id = (tree.node? id).bind FieldNode.element? := by
  unfold element?
  cases tree.node? id with
  | none => rfl
  | some node =>
      obtain ⟨name, parent, shape, access⟩ := node
      cases shape <;> rfl

theorem mem_children_of_element? {tree : FieldTree} {id element : NodeId}
    (named : tree.element? id = some element) :
    element ∈ tree.children id := by
  rw [element?_eq_bind] at named
  obtain ⟨node, found, names⟩ := Option.bind_eq_some_iff.1 named
  unfold FieldNode.element? at names
  split at names
  · next shape =>
      cases names
      simp [children, found, FieldNode.children, shape]
  · cases names

theorem isNamed_iff {tree : FieldTree} {name : String} {id : NodeId} :
    tree.isNamed name id = true ↔ tree.name? id = some name := by
  unfold isNamed name?
  cases tree.node? id <;> simp

theorem child?_eq_none_iff {tree : FieldTree} {id : NodeId} {name : String} :
    tree.child? id name = none ↔
      ∀ child, child ∈ tree.children id → tree.name? child ≠ some name := by
  simp only [child?, List.find?_eq_none, isNamed_iff, ne_eq]

theorem ext_node? {left right : FieldTree} (same : ∀ id, left.node? id = right.node? id) :
    left = right := by
  obtain ⟨leftNodes⟩ := left
  obtain ⟨rightNodes⟩ := right
  congr 1
  exact Array.ext_getElem? same

theorem lt_size_of_shape? {tree : FieldTree} {id : NodeId} {shape : NodeShape}
    (known : tree.shape? id = some shape) :
    id < tree.size := by
  obtain ⟨node, found, _⟩ := Option.map_eq_some_iff.1 known
  exact lt_size_of_node? found

theorem hasObject_iff {tree : FieldTree} {id : NodeId} :
    tree.hasObject id = true ↔ ∃ children, tree.shape? id = some (.object children) := by
  unfold hasObject shape?
  cases tree.node? id with
  | none => simp
  | some node =>
      cases shape : node.shape <;> simp [FieldNode.isObject, shape]

theorem hasLeaf_iff {tree : FieldTree} {id : NodeId} :
    tree.hasLeaf id = true ↔
      ∃ type constraints, tree.shape? id = some (.leaf type constraints) := by
  unfold hasLeaf shape?
  cases tree.node? id with
  | none => simp
  | some node =>
      cases shape : node.shape <;> simp [FieldNode.isLeaf, shape]

theorem element?_eq_some_iff {tree : FieldTree} {id element : NodeId} :
    tree.element? id = some element ↔ tree.shape? id = some (.array element) := by
  unfold element? shape?
  cases tree.node? id with
  | none => simp
  | some node =>
      cases shape : node.shape <;> simp [shape]

theorem children_of_object {tree : FieldTree} {id : NodeId} {children : List NodeId}
    (object : tree.shape? id = some (.object children)) :
    tree.children id = children := by
  obtain ⟨node, found, shape⟩ := Option.map_eq_some_iff.1 object
  simp [FieldTree.children, found, FieldNode.children, shape]

theorem children_of_array {tree : FieldTree} {id element : NodeId}
    (array : tree.shape? id = some (.array element)) :
    tree.children id = [element] := by
  obtain ⟨node, found, shape⟩ := Option.map_eq_some_iff.1 array
  simp [FieldTree.children, found, FieldNode.children, shape]

private theorem node?_push (tree : FieldTree) (node : FieldNode) (id : NodeId) :
    (tree.push node).node? id = if id = tree.size then some node else tree.node? id :=
  Array.getElem?_push

theorem node?_change
    (tree : FieldTree) (id : NodeId) (edit : FieldNode → FieldNode) (other : NodeId) :
    (tree.change id edit).node? other =
      if id = other then (tree.node? other).map edit else tree.node? other :=
  Array.getElem?_modify

theorem change_self (tree : FieldTree) (id : NodeId) :
    tree.change id (fun node => node) = tree := by
  apply ext_node?
  intro other
  rw [node?_change]
  split
  · exact Option.map_id_fun' ▸ rfl
  · rfl

theorem change_change (tree : FieldTree) (id : NodeId) (first second : FieldNode → FieldNode) :
    (tree.change id first).change id second = tree.change id fun node => second (first node) := by
  apply ext_node?
  intro other
  rw [node?_change, node?_change, node?_change]
  by_cases here : id = other
  · rw [if_pos here, if_pos here, if_pos here, Option.map_map]
    rfl
  · rw [if_neg here, if_neg here, if_neg here]

theorem name_addChild (child : NodeId) (node : FieldNode) :
    (addChild child node).name = node.name := by
  unfold addChild
  split <;> rfl

theorem parent_addChild (child : NodeId) (node : FieldNode) :
    (addChild child node).parent = node.parent := by
  unfold addChild
  split <;> rfl

theorem children_addChild
    {node : FieldNode} (object : node.isObject = true) (child : NodeId) :
    (addChild child node).children = node.children ++ [child] := by
  unfold FieldNode.isObject at object
  split at object
  · next shape => simp [addChild, FieldNode.children, shape]
  · cases object

theorem isObject_addChild (child : NodeId) (node : FieldNode) :
    (addChild child node).isObject = node.isObject := by
  unfold addChild
  split
  · next shape => simp [FieldNode.isObject, shape]
  · rfl

theorem element?_addChild (child : NodeId) (node : FieldNode) :
    (addChild child node).element? = node.element? := by
  unfold addChild
  split
  · next shape => simp [FieldNode.element?, shape]
  · rfl

@[simp]
theorem size_push (tree : FieldTree) (node : FieldNode) :
    (tree.push node).size = tree.size + 1 := by
  simp [push, size]

@[simp]
theorem size_change (tree : FieldTree) (id : NodeId) (edit : FieldNode → FieldNode) :
    (tree.change id edit).size = tree.size := by
  simp [change, size]

/-- A question about nodes has the same answers after a change that it does not see. -/
theorem query_change
    {β : Type} (query : Option FieldNode → β) {edit : FieldNode → FieldNode}
    (unseen : ∀ node, query (some (edit node)) = query (some node))
    (tree : FieldTree) (id other : NodeId) :
    query ((tree.change id edit).node? other) = query (tree.node? other) := by
  rw [node?_change]
  split
  · cases tree.node? other with
    | none => rfl
    | some node => exact unseen node
  · rfl

/-- The tree with a node behind all others and with its owner changed. -/
def graft
    (tree : FieldTree) (node : FieldNode) (owner : NodeId) (edit : FieldNode → FieldNode) :
    FieldTree :=
  (tree.push node).change owner edit

@[simp]
theorem size_graft
    (tree : FieldTree) (node : FieldNode) (owner : NodeId) (edit : FieldNode → FieldNode) :
    (tree.graft node owner edit).size = tree.size + 1 := by
  rw [graft, size_change, size_push]

theorem query_graft
    {β : Type} (query : Option FieldNode → β)
    {tree : FieldTree} {owner : NodeId} {above : FieldNode}
    (found : tree.node? owner = some above) (node : FieldNode)
    (edit : FieldNode → FieldNode) (id : NodeId) :
    query ((tree.graft node owner edit).node? id) =
      if id = tree.size then query (some node)
      else if id = owner then query (some (edit above))
      else query (tree.node? id) := by
  have owner_ne : owner ≠ tree.size := Nat.ne_of_lt (lt_size_of_node? found)
  rw [graft, node?_change, node?_push]
  by_cases atEnd : id = tree.size
  · rw [if_pos atEnd, if_pos atEnd, if_neg (by rwa [atEnd])]
  · rw [if_neg atEnd, if_neg atEnd]
    by_cases atOwner : id = owner
    · subst atOwner
      rw [if_pos rfl, if_pos rfl, found, Option.map_some]
    · rw [if_neg (Ne.symm atOwner), if_neg atOwner]

end FieldTree
end Schemata

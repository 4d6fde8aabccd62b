import Schemata.Proofs.FieldTree.DeclarationOrder
import Schemata.Proofs.FieldTree.Paths

/-!
# Required fields

The required leaves of a tree stand in the order in which a walk meets them that goes down into the
children of a node before it goes on to the siblings. The walk comes to an end without any bound on
its steps, and it meets what recursion on the tree lists.
-/
namespace Schemata.FieldTree

variable {tree : FieldTree} {id : NodeId} {siblings met others : List NodeId}
  {rows : List (List NodeId)}

/-- A walk through rows of siblings ends and has then met some nodes. The row that was begun last goes
first: it is left when nothing remains of it, and each of its nodes is followed by the row of the
node's children. -/
inductive Meets (tree : FieldTree) : List (List NodeId) → List NodeId → Prop
  | done : Meets tree [] []
  | left {rows : List (List NodeId)} {met : List NodeId} :
      Meets tree rows met →
      Meets tree ([] :: rows) met
  | entered
      {id : NodeId} {siblings : List NodeId} {rows : List (List NodeId)} {met : List NodeId} :
      Meets tree (tree.children id :: siblings :: rows) met →
      Meets tree ((id :: siblings) :: rows) (id :: met)

theorem Meets.unique (meets : Meets tree rows met) (meetsOthers : Meets tree rows others) :
    others = met := by
  induction meets generalizing others with
  | done =>
      cases meetsOthers
      rfl
  | left _ hypothesis =>
      cases meetsOthers with
      | left rest => exact hypothesis rest
  | entered _ hypothesis =>
      cases meetsOthers with
      | entered rest => rw [hypothesis rest]

/-- Whatever remains to be gone through, a walk that comes to a node first meets the nodes at and
beneath it. -/
def MeetsSubtree (tree : FieldTree) (id : NodeId) : Prop :=
  ∀ (siblings : List NodeId) (rows : List (List NodeId)) (met : List NodeId),
    Meets tree (siblings :: rows) met →
      Meets tree ((id :: siblings) :: rows) (tree.subtree id ++ met)

private theorem meets_row
    {ids : List NodeId} (each : ∀ id ∈ ids, MeetsSubtree tree id) (rest : Meets tree rows met) :
    Meets tree (ids :: rows) (ids.flatMap tree.subtree ++ met) := by
  induction ids with
  | nil => exact .left rest
  | cons id ids hypothesis =>
      obtain ⟨first, later⟩ := List.forall_mem_cons.1 each
      rw [List.flatMap_cons, List.append_assoc]
      exact first ids rows _ (hypothesis later)

theorem Linked.meetsSubtree (linked : tree.Linked) (id : NodeId) : MeetsSubtree tree id := by
  induction id using tree.induction_from_back with
  | step id hypothesis =>
      intro siblings rows met rest
      have children (child : NodeId) (listed : child ∈ tree.children id) :
          MeetsSubtree tree child :=
        hypothesis child (linked.lt_of_child listed) (linked.lt_size_of_child listed)
      rw [linked.subtree_eq, List.cons_append]
      exact .entered (meets_row children rest)

/-- From the row of a node's children the walk ends with all that is beneath the node. -/
theorem Linked.meets_children_iff (linked : tree.Linked) (id : NodeId) :
    Meets tree [tree.children id] met ↔ met = (tree.children id).flatMap tree.subtree := by
  have children (child : NodeId) (_ : child ∈ tree.children id) : MeetsSubtree tree child :=
    linked.meetsSubtree child
  have meets := meets_row children .done
  rw [List.append_nil] at meets
  constructor
  · exact meets.unique
  · rintro rfl
    exact meets

namespace WellFormed

private theorem fullPath_injective
    (wellFormed : tree.WellFormed) {left right : NodeId} (leftInside : left < tree.size)
    (rightInside : right < tree.size) (same : tree.fullPath left = tree.fullPath right) :
    left = right := by
  have resolved := wellFormed.resolve?_fullPath leftInside
  rw [same, wellFormed.resolve?_fullPath rightInside] at resolved
  exact (Option.some.inj resolved).symm

private theorem fullPath_element
    (wellFormed : tree.WellFormed) {array element : NodeId}
    (named : tree.element? array = some element) :
    tree.fullPath element = (tree.fullPath array).child Path.wildcard := by
  have listed := mem_children_of_element? named
  have wildcard := (wellFormed.elements array element named).2.1
  exact fullPath_of_parent (wellFormed.backed array element listed)
    (wellFormed.lt_of_child listed) wildcard

private theorem requiredFields_eq (wellFormed : tree.WellFormed) :
    tree.requiredFields =
      (((tree.children root).flatMap tree.subtree).filter tree.isRequired).map tree.fullPath := by
  rw [requiredFields, wellFormed.declarationOrder_eq]

private theorem mem_requiredFields_iff (wellFormed : tree.WellFormed) {path : Path} :
    path ∈ tree.requiredFields ↔
      ∃ id type constraints,
        tree.shape? id = some (.leaf type constraints) ∧ .required ∈ constraints ∧
          tree.fullPath id = path := by
  rw [requiredFields, List.mem_map]
  constructor
  · rintro ⟨id, listed, same⟩
    obtain ⟨type, constraints, shape, required⟩ :=
      isRequired_iff.1 ((wellFormed.required_once.2 id).1 listed)
    exact ⟨id, type, constraints, shape, required, same⟩
  · rintro ⟨id, type, constraints, shape, required, same⟩
    have isRequired := isRequired_iff.2 ⟨type, constraints, shape, required⟩
    exact ⟨id, (wellFormed.required_once.2 id).2 isRequired, same⟩

/-- Different leaves have different paths, and so no path is listed twice. -/
theorem nodup_requiredFields (wellFormed : tree.WellFormed) : tree.requiredFields.Nodup := by
  have inside (id : NodeId) (listed : id ∈ tree.declarationOrder.filter tree.isRequired) :
      id < tree.size := by
    obtain ⟨type, constraints, shape, _⟩ :=
      isRequired_iff.1 ((wellFormed.required_once.2 id).1 listed)
    exact lt_size_of_shape? shape
  apply wellFormed.required_once.1.map_on
  intro left leftListed right rightListed same
  exact wellFormed.fullPath_injective (inside left leftListed) (inside right rightListed) same

private theorem requiredFields_perm (wellFormed : tree.WellFormed) :
    tree.requiredFields.Perm ((tree.fields.filter tree.isRequired).map tree.fullPath) :=
  (wellFormed.declarationOrder_perm.filter tree.isRequired).map tree.fullPath

end WellFormed

/-- In every tree that operations make, the required fields are the paths of the required leaves, each
of them once. They stand in the order of a recursion that lists a node before its children and the
children as they are declared, an array's element among them under the wildcard; the walk through rows
of siblings ends with just these nodes. Up to their order they are the required ones of the nodes in
the order in which these were added. -/
theorem requiredFields_of_operations (growths : List Growth) :
    let tree := empty.growAll growths
    let order := (tree.children root).flatMap tree.subtree
    (∀ id, tree.subtree id = id :: (tree.children id).flatMap tree.subtree) ∧
      (∀ met, Meets tree [tree.children root] met ↔ met = order) ∧
      tree.requiredFields = (order.filter tree.isRequired).map tree.fullPath ∧
      tree.requiredFields.Nodup ∧
      (∀ path, path ∈ tree.requiredFields ↔
        ∃ id type constraints,
          tree.shape? id = some (.leaf type constraints) ∧ .required ∈ constraints ∧
            tree.fullPath id = path) ∧
      (∀ array element, tree.element? array = some element →
        tree.fullPath element = (tree.fullPath array).child Path.wildcard) ∧
      tree.requiredFields.Perm ((tree.fields.filter tree.isRequired).map tree.fullPath) := by
  intro tree order
  have wellFormed : tree.WellFormed := wellFormed_empty.growAll growths
  have linked := wellFormed.toLinked
  exact ⟨linked.subtree_eq, fun _ => linked.meets_children_iff root,
    wellFormed.requiredFields_eq, wellFormed.nodup_requiredFields,
    fun _ => wellFormed.mem_requiredFields_iff, fun _ _ => wellFormed.fullPath_element,
    wellFormed.requiredFields_perm⟩

/-- The total was added before anything that is nested in the lines, but they are declared first. -/
example :
    let tree := empty.growAll [
      .objectArray root "lines", .leaf root "total" ⟨0, 0, .scalar .double⟩,
      .leaf 2 "sku" ⟨0, 1, .scalar .uid⟩, .constraint 3 .required, .constraint 4 .required]
    tree.requiredFields.map Path.render = ["lines.*.sku", "total"] := by
  cbv

end Schemata.FieldTree

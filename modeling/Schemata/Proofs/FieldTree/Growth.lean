import Schemata.Proofs.Attempt
import Schemata.Proofs.FieldTree.Nodes

/-!
# Ways in which a tree grows

What may be added where, and what becomes of a tree when something is added or refined. Whatever
fails leaves the tree as it was.
-/
namespace Schemata

/-- A name that a field of an object may have. -/
structure IsFieldName (name : String) : Prop where
  notEmpty : name ≠ ""
  noDot : '.' ∉ name.toList
  notWildcard : name ≠ Path.wildcard

namespace FieldTree

variable {tree : FieldTree} {parent id : NodeId} {name : String}

/-- A field of the name may be added beneath a node: the node is an object, and has no such field
yet. -/
structure Addable (tree : FieldTree) (parent : NodeId) (name : String) : Prop where
  named : IsFieldName name
  beneathObject : tree.hasObject parent = true
  fresh : tree.child? parent name = none

theorem checkName_eq_ok_iff :
    tree.checkName parent name = .ok () ↔ IsFieldName name := by
  unfold checkName
  constructor
  · intro success
    split at success
    · cases success
    · next notEmpty =>
        split at success
        · cases success
        · next allowed =>
            rw [not_or] at allowed
            exact ⟨notEmpty, allowed.1, allowed.2⟩
  · rintro ⟨notEmpty, noDot, notWildcard⟩
    simp [notEmpty, noDot, notWildcard]

theorem checkField_eq_ok_iff :
    tree.checkField parent name = .ok () ↔ tree.Addable parent name := by
  unfold checkField
  rw [check_bind_eq_ok_iff, checkName_eq_ok_iff]
  constructor
  · rintro ⟨named, success⟩
    cases beneath : (tree.node? parent).any FieldNode.isObject with
    | false =>
        rw [beneath] at success
        cases success
    | true =>
        rw [beneath] at success
        cases fresh : tree.child? parent name with
        | none => exact ⟨named, beneath, fresh⟩
        | some child =>
            rw [fresh] at success
            cases success
  · rintro ⟨named, beneath, fresh⟩
    rw [hasObject] at beneath
    refine ⟨named, ?_⟩
    rw [beneath, fresh]
    rfl

/-- Beneath an object that has no such field yet, only the name can be at fault. -/
theorem cases_of_checkField
    {error : FieldTreeError} (object : tree.hasObject parent = true)
    (fresh : tree.child? parent name = none)
    (failed : tree.checkField parent name = .error error) :
    ¬IsFieldName name ∧
      (error = .emptyName (tree.fullPath parent) ∨ error = .invalidName name) := by
  have passed (named : IsFieldName name) : tree.checkField parent name = .ok () :=
    checkField_eq_ok_iff.2 ⟨named, object, fresh⟩
  have unnamed : ¬IsFieldName name := by
    intro named
    rw [passed named] at failed
    cases failed
  refine ⟨unnamed, ?_⟩
  rw [checkField, bind_eq_error_iff] at failed
  rcases failed with failed | ⟨_, checked, _⟩
  · unfold checkName at failed
    split at failed
    · cases failed
      exact Or.inl rfl
    · split at failed
      · cases failed
        exact Or.inr rfl
      · cases failed
  · exact (unnamed (checkName_eq_ok_iff.1 checked)).elim

theorem outcome_addField
    {α : Type} (parent : NodeId) (name : String) (grown : FieldTree → FieldTree)
    (places : FieldTree → α) (tree : FieldTree) :
    Attempt.outcome (addField parent name grown places) tree =
      match tree.checkField parent name with
      | .ok () => (.ok (places tree), grown tree)
      | .error error => (.error error, tree) := by
  simp only [addField, Attempt.outcome_bind, Attempt.outcome_get, Attempt.outcome_ofExcept]
  cases tree.checkField parent name with
  | error error => rfl
  | ok passed => rfl

private theorem outcome_addField_of_addable
    {α : Type} {grown : FieldTree → FieldTree} {places : FieldTree → α}
    (addable : tree.Addable parent name) :
    Attempt.outcome (addField parent name grown places) tree = (.ok (places tree), grown tree) := by
  rw [outcome_addField, checkField_eq_ok_iff.2 addable]

/-- An addition either leaves a tree as it is or makes it grow where it may. -/
theorem addField_cases
    {α : Type} (parent : NodeId) (name : String) (grown : FieldTree → FieldTree)
    (places : FieldTree → α) (tree : FieldTree) :
    (Attempt.outcome (addField parent name grown places) tree).2 = tree ∨
      tree.Addable parent name ∧
        (Attempt.outcome (addField parent name grown places) tree).2 = grown tree := by
  rw [outcome_addField]
  cases checked : tree.checkField parent name with
  | error error => exact Or.inl rfl
  | ok passed => exact Or.inr ⟨checkField_eq_ok_iff.1 checked, rfl⟩

theorem outcome_addConstraint (id : NodeId) (constraint : Constraint) (tree : FieldTree) :
    Attempt.outcome (addConstraint id constraint) tree =
      if tree.hasLeaf id then (.ok (), tree.change id (constrain constraint))
      else (.error (.notSimple (tree.fullPath id)), tree) := by
  unfold addConstraint hasLeaf
  cases leaf : (tree.node? id).any FieldNode.isLeaf with
  | false => simp [leaf]
  | true => simp [leaf]

/-- One operation on a tree. -/
inductive Growth where
  | leaf (parent : NodeId) (name : String) (type : TypeRef)
  | object (parent : NodeId) (name : String)
  | array (parent : NodeId) (name : String) (element : TypeRef)
  | objectArray (parent : NodeId) (name : String)
  | constraint (id : NodeId) (constraint : Constraint)
  | access (id : NodeId) (operation : Operation) (roles : List String)

/-- The tree after an operation, whether that succeeds or fails. -/
def grow (tree : FieldTree) : Growth → FieldTree
  | .leaf parent name type => (Attempt.outcome (addLeaf parent name type) tree).2
  | .object parent name => (Attempt.outcome (addObject parent name) tree).2
  | .array parent name element => (Attempt.outcome (addArray parent name element) tree).2
  | .objectArray parent name => (Attempt.outcome (addObjectArray parent name) tree).2
  | .constraint id constraint => (Attempt.outcome (addConstraint id constraint) tree).2
  | .access id operation roles => tree.grant id operation roles

def growAll (tree : FieldTree) (growths : List Growth) : FieldTree :=
  growths.foldl grow tree

/-- A leaf without constraints or an object without fields. -/
inductive Bare : NodeShape → Prop
  | leaf (type : TypeRef) : Bare (.leaf type [])
  | object : Bare (.object [])

/-- A change that a node shows only in its access or in the constraints of a leaf. -/
structure Refines (edit : FieldNode → FieldNode) : Prop where
  name : ∀ node, (edit node).name = node.name
  parent : ∀ node, (edit node).parent = node.parent
  shape : ∀ node,
    (edit node).shape = node.shape ∨ (edit node).isLeaf = true ∧ node.isLeaf = true

theorem refines_constrain (constraint : Constraint) : Refines (constrain constraint) where
  name node := by
    unfold constrain
    split <;> rfl
  parent node := by
    unfold constrain
    split <;> rfl
  shape node := by
    unfold constrain
    split
    · next shape => exact Or.inr ⟨rfl, by simp [FieldNode.isLeaf, shape]⟩
    · exact Or.inl rfl

theorem refines_access (change : Access → Access) :
    Refines fun node => { node with access := change node.access } where
  name _ := rfl
  parent _ := rfl
  shape _ := Or.inl rfl

theorem Refines.shape_of_not_isLeaf
    {edit : FieldNode → FieldNode} (refines : Refines edit) (node : FieldNode)
    (notLeaf : node.isLeaf = false) :
    (edit node).shape = node.shape := by
  rcases refines.shape node with same | ⟨_, leaf⟩
  · exact same
  · rw [notLeaf] at leaf
    cases leaf

theorem Refines.self : Refines fun node => node where
  name _ := rfl
  parent _ := rfl
  shape _ := Or.inl rfl

theorem Refines.comp
    {first second : FieldNode → FieldNode} (inner : Refines first) (outer : Refines second) :
    Refines fun node => second (first node) where
  name node := (outer.name _).trans (inner.name node)
  parent node := (outer.parent _).trans (inner.parent node)
  shape node := by
    rcases inner.shape node with same | ⟨leafBetween, leafBefore⟩
    · rcases outer.shape (first node) with kept | ⟨leafAfter, leafBetween⟩
      · exact Or.inl (kept.trans same)
      · rw [FieldNode.isLeaf, same, ← FieldNode.isLeaf] at leafBetween
        exact Or.inr ⟨leafAfter, leafBetween⟩
    · rcases outer.shape (first node) with kept | ⟨leafAfter, _⟩
      · rw [FieldNode.isLeaf, ← kept, ← FieldNode.isLeaf] at leafBetween
        exact Or.inr ⟨leafBetween, leafBefore⟩
      · exact Or.inr ⟨leafAfter, leafBefore⟩

theorem constrain_of_leaf
    {node : FieldNode} (leaf : node.isLeaf = true) (constraint : Constraint) :
    (constrain constraint node).type? = node.type? ∧
      (constrain constraint node).access = node.access ∧
        (constrain constraint node).constraints = node.constraints ++ [constraint] := by
  obtain ⟨name, parent, shape, access⟩ := node
  cases shape with
  | leaf type constraints => exact ⟨rfl, rfl, rfl⟩
  | object children => cases leaf
  | array element => cases leaf

theorem grow_leaf_of_addable (addable : tree.Addable parent name) (type : TypeRef) :
    tree.grow (.leaf parent name type) = tree.attach parent name (.leaf type []) := by
  rw [grow, addLeaf, outcome_addField_of_addable addable]

theorem grow_object_of_addable (addable : tree.Addable parent name) :
    tree.grow (.object parent name) = tree.attach parent name (.object []) := by
  rw [grow, addObject, outcome_addField_of_addable addable]

theorem grow_objectArray_of_addable (addable : tree.Addable parent name) :
    tree.grow (.objectArray parent name) = tree.attachArray parent name (.object []) := by
  rw [grow, addObjectArray, outcome_addField_of_addable addable]

/-- An operation leaves a tree as it is, or attaches a field that may be added, or refines a
node. -/
theorem grow_cases (tree : FieldTree) (growth : Growth) :
    tree.grow growth = tree ∨
      (∃ parent name shape,
        tree.Addable parent name ∧ Bare shape ∧
          tree.grow growth = tree.attach parent name shape) ∨
      (∃ parent name element,
        tree.Addable parent name ∧ Bare element ∧
          tree.grow growth = tree.attachArray parent name element) ∨
      ∃ id edit, Refines edit ∧ tree.grow growth = tree.change id edit := by
  cases growth with
  | leaf parent name type =>
      rcases addField_cases parent name _ _ tree with same | ⟨addable, grown⟩
      · exact Or.inl same
      · exact Or.inr (Or.inl ⟨parent, name, _, addable, .leaf type, grown⟩)
  | object parent name =>
      rcases addField_cases parent name _ _ tree with same | ⟨addable, grown⟩
      · exact Or.inl same
      · exact Or.inr (Or.inl ⟨parent, name, _, addable, .object, grown⟩)
  | array parent name element =>
      rcases addField_cases parent name _ _ tree with same | ⟨addable, grown⟩
      · exact Or.inl same
      · exact Or.inr (Or.inr (Or.inl ⟨parent, name, _, addable, .leaf element, grown⟩))
  | objectArray parent name =>
      rcases addField_cases parent name _ _ tree with same | ⟨addable, grown⟩
      · exact Or.inl same
      · exact Or.inr (Or.inr (Or.inl ⟨parent, name, _, addable, .object, grown⟩))
  | constraint id constraint =>
      rw [grow, outcome_addConstraint]
      split
      · exact Or.inr (Or.inr (Or.inr ⟨id, _, refines_constrain constraint, rfl⟩))
      · exact Or.inl rfl
  | access id operation roles =>
      exact Or.inr (Or.inr (Or.inr
        ⟨id, _, refines_access (·.grant operation roles), rfl⟩))

end FieldTree
end Schemata

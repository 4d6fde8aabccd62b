import Schemata.Proofs.FieldTree.DeclarationOrder
import Schemata.Proofs.FieldTree.Keeps
import Schemata.Proofs.Metadata.Declaration

/-!
# Nodes as they are declared

What stands in a tree for a declaration, and for the declarations nested in it. Adding fields
elsewhere changes nothing of that.
-/
namespace Schemata.Metadata

variable {types : TypeRegistry} {tree later : FieldTree} {id bound : NodeId}
  {declaration items : Members}

/-- The shape of an array's element, as the declaration of the items tells it. -/
inductive DeclaresElement (types : TypeRegistry) (items : Members) : NodeShape → Prop
  | leaf {typeName : String} {type : TypeRef} :
      NamesLeafType types items typeName type → DeclaresElement types items (.leaf type [])
  | object {fields : Members} {children : List NodeId} :
      HoldsFields items fields → DeclaresElement types items (.object children)

/-- The shape of a field, as its declaration tells it. -/
inductive DeclaresShape (types : TypeRegistry) (tree : FieldTree) (declaration : Members) :
    NodeShape → Prop
  | leaf {typeName : String} {type : TypeRef} {constraints : List Constraint} :
      NamesLeafType types declaration typeName type → typeName ≠ "array" →
      DeclaresShape types tree declaration (.leaf type constraints)
  | object {fields : Members} {children : List NodeId} :
      HoldsFields declaration fields → DeclaresShape types tree declaration (.object children)
  | array {items : Members} {element : NodeId} {node : FieldNode} :
      HoldsItems declaration items → tree.node? element = some node →
      DeclaresElement types items node.shape → node.access = ∅ →
      DeclaresShape types tree declaration (.array element)

/-- A node stands for a declaration. -/
structure DeclaresNode
    (types : TypeRegistry) (tree : FieldTree) (declaration : Members) (node : FieldNode) :
    Prop where
  shape : DeclaresShape types tree declaration node.shape
  constraints : WritesConstraints declaration node.constraints
  access : WritesAccess declaration node.access

section Inversion

variable {fields : Members} {shape : NodeShape} {children : List NodeId} {element : NodeId}

theorem DeclaresElement.object_of_holdsFields
    (declares : DeclaresElement types items shape) (holds : HoldsFields items fields) :
    ∃ children, shape = .object children := by
  cases declares with
  | leaf names => exact (names.not_holdsFields holds).elim
  | object _ => exact ⟨_, rfl⟩

theorem DeclaresElement.exists_holdsFields
    (declares : DeclaresElement types items (.object children)) :
    ∃ fields, HoldsFields items fields := by
  cases declares with
  | object holds => exact ⟨_, holds⟩

theorem DeclaresElement.constraints_eq_nil
    {node : FieldNode} (declares : DeclaresElement types items node.shape) :
    node.constraints = [] := by
  rw [FieldNode.constraints]
  generalize node.shape = shape at declares
  cases declares <;> rfl

theorem DeclaresShape.object_of_holdsFields
    (declares : DeclaresShape types tree declaration shape)
    (holds : HoldsFields declaration fields) :
    ∃ children, shape = .object children := by
  cases declares with
  | leaf names _ => exact (names.not_holdsFields holds).elim
  | object _ => exact ⟨_, rfl⟩
  | array holdsItems _ _ _ => exact (holds.not_holdsItems holdsItems).elim

theorem DeclaresShape.exists_holdsFields
    (declares : DeclaresShape types tree declaration (.object children)) :
    ∃ fields, HoldsFields declaration fields := by
  cases declares with
  | object holds => exact ⟨_, holds⟩

theorem DeclaresShape.array_of_holdsItems
    (declares : DeclaresShape types tree declaration shape)
    (holdsItems : HoldsItems declaration items) :
    ∃ element, shape = .array element := by
  cases declares with
  | leaf names notArray => exact (names.not_holdsItems notArray holdsItems).elim
  | object holds => exact (holds.not_holdsItems holdsItems).elim
  | array _ _ _ _ => exact ⟨_, rfl⟩

theorem DeclaresShape.exists_holdsItems
    (declares : DeclaresShape types tree declaration (.array element)) :
    ∃ items node, HoldsItems declaration items ∧ tree.node? element = some node ∧
      DeclaresElement types items node.shape ∧ node.access = ∅ := by
  cases declares with
  | array holdsItems found declaresElement noAccess =>
      exact ⟨_, _, holdsItems, found, declaresElement, noAccess⟩

end Inversion

theorem DeclaresElement.kept
    {node after : FieldNode} (declares : DeclaresElement types items node.shape)
    (kept : node.Kept after) :
    DeclaresElement types items after.shape := by
  rcases kept.shape with same | ⟨before, now, object, objectAfter⟩
  · rwa [same]
  · rw [object] at declares
    cases declares with
    | object holds =>
        rw [objectAfter]
        exact .object holds

theorem DeclaresShape.keeps
    {shape : NodeShape} (declares : DeclaresShape types tree declaration shape)
    (keeps : tree.Keeps later) :
    DeclaresShape types later declaration shape := by
  cases declares with
  | leaf names notArray => exact .leaf names notArray
  | object holds => exact .object holds
  | array holds found declaresElement noAccess =>
      obtain ⟨after, foundAfter, kept⟩ := keeps _ _ found
      exact .array holds foundAfter (declaresElement.kept kept) (kept.access.trans noAccess)

theorem DeclaresNode.kept
    {node after : FieldNode} (declares : DeclaresNode types tree declaration node)
    (keeps : tree.Keeps later) (kept : node.Kept after) :
    DeclaresNode types later declaration after := by
  refine ⟨?_, ?_, ?_⟩
  · have shape := declares.shape.keeps keeps
    rcases kept.shape with same | ⟨before, now, object, objectAfter⟩
    · rwa [same]
    · rw [object] at shape
      cases shape with
      | object holds =>
          rw [objectAfter]
          exact .object holds
  · rw [kept.constraints]
    exact declares.constraints
  · rw [kept.access]
    exact declares.access

/-- The object of a declared node whose fields are nested in the declaration: the node itself, or its
element. -/
inductive Opens (tree : FieldTree) (declaration : Members) (id : NodeId) :
    NodeId → Members → Prop
  | object {fields : Members} :
      HoldsFields declaration fields → Opens tree declaration id id fields
  | items {items fields : Members} {element : NodeId} :
      HoldsItems declaration items → HoldsFields items fields →
      tree.element? id = some element → Opens tree declaration id element fields

/-- Some nodes stand for the declarations of some fields in order, and all nodes beneath them for the
nested declarations. -/
inductive Declares (types : TypeRegistry) (tree : FieldTree) : Members → List NodeId → Prop
  | nil : Declares types tree [] []
  | cons
      {name : String} {declaration : Members} {node : FieldNode} {id : NodeId} {rest : Members}
      {ids : List NodeId} :
      tree.node? id = some node → node.name = name →
      DeclaresNode types tree declaration node →
      (∀ opened fields, Opens tree declaration id opened fields →
        Declares types tree fields (tree.children opened)) →
      Declares types tree rest ids →
      Declares types tree ((name, .object declaration) :: rest) (id :: ids)

section Opens

variable {fields : Members} {element opened : NodeId}

theorem NamesLeafType.opens_nothing
    {typeName : String} {type : TypeRef} (names : NamesLeafType types declaration typeName type)
    (notArray : typeName ≠ "array") :
    ¬Opens tree declaration id opened fields := by
  rintro (holds | ⟨holdsItems, _, _⟩)
  · exact names.not_holdsFields holds
  · exact names.not_holdsItems notArray holdsItems

theorem HoldsItems.opens_nothing
    {typeName : String} {type : TypeRef} (holdsItems : HoldsItems declaration items)
    (names : NamesLeafType types items typeName type) :
    ¬Opens tree declaration id opened fields := by
  rintro (holds | ⟨holdsOthers, holds, _⟩)
  · exact holds.not_holdsItems holdsItems
  · rw [holdsItems.unique holdsOthers] at holds
    exact names.not_holdsFields holds

theorem HoldsFields.opens_iff (holds : HoldsFields declaration fields) :
    (∃ nested, Opens tree declaration id opened nested) ↔ id = opened := by
  constructor
  · rintro ⟨_, _ | ⟨holdsItems, _, _⟩⟩
    · rfl
    · exact (holds.not_holdsItems holdsItems).elim
  · rintro rfl
    exact ⟨fields, .object holds⟩

theorem HoldsItems.opens_iff
    (holdsItems : HoldsItems declaration items) (holds : HoldsFields items fields)
    (named : tree.element? id = some element) :
    (∃ nested, Opens tree declaration id opened nested) ↔ element = opened := by
  constructor
  · rintro ⟨_, holdsHere | ⟨_, _, namedHere⟩⟩
    · exact (holdsHere.not_holdsItems holdsItems).elim
    · exact Option.some.inj (named.symm.trans namedHere)
  · rintro rfl
    exact ⟨fields, .items holdsItems holds named⟩

end Opens

theorem opens_iff_of_element?
    (element : later.element? id = tree.element? id) {opened : NodeId} {fields : Members} :
    Opens later declaration id opened fields ↔ Opens tree declaration id opened fields := by
  constructor
  · rintro (holds | ⟨holdsItems, holds, named⟩)
    · exact .object holds
    · exact .items holdsItems holds (element ▸ named)
  · rintro (holds | ⟨holdsItems, holds, named⟩)
    · exact .object holds
    · exact .items holdsItems holds (element.trans named)

theorem Opens.le_opened
    (wellFormed : tree.WellFormed) {opened : NodeId} {fields : Members}
    (opens : Opens tree declaration id opened fields) :
    id ≤ opened := by
  cases opens with
  | object holds => exact Nat.le_refl _
  | items holdsItems holds named => exact Nat.le_of_lt (wellFormed.elements _ _ named).1

theorem Opens.lt_size
    (wellFormed : tree.WellFormed) (inside : id < tree.size) {opened : NodeId} {fields : Members}
    (opens : Opens tree declaration id opened fields) :
    opened < tree.size := by
  cases opens with
  | object holds => exact inside
  | items holdsItems holds named =>
      exact wellFormed.lt_size_of_child (FieldTree.mem_children_of_element? named)

/-- Growth that changes no node behind some place changes nothing of what stands there. -/
theorem Declares.keeps
    {members : Members} {ids : List NodeId} (declares : Declares types tree members ids)
    (wellFormed : tree.WellFormed) (keeps : tree.Keeps later)
    (behind : ∀ id, bound ≤ id → id < tree.size → later.children id = tree.children id)
    (starts : ∀ id ∈ ids, bound ≤ id) :
    Declares types later members ids := by
  induction declares with
  | nil => exact .nil
  | @cons name declaration node id rest ids found named declares nested _ inNested inRest =>
      have here := starts id List.mem_cons_self
      obtain ⟨after, foundAfter, kept⟩ := keeps id node found
      have inside := FieldTree.lt_size_of_node? found
      refine .cons foundAfter (kept.name.trans named) (declares.kept keeps kept) ?_ ?_
      · intro opened fields opens
        rw [opens_iff_of_element? (keeps.element? inside)] at opens
        have beyond := Nat.le_trans here (opens.le_opened wellFormed)
        rw [behind opened beyond (opens.lt_size wellFormed inside)]
        apply inNested opened fields opens
        intro child listed
        exact Nat.le_of_lt (Nat.lt_of_le_of_lt beyond (wellFormed.lt_of_child listed))
      · exact inRest fun next listed => starts next (List.mem_cons_of_mem _ listed)

end Schemata.Metadata

import Schemata.Metadata.Document
import Schemata.Proofs.FieldTree.Paths
import Schemata.Proofs.Metadata.Nesting

/-!
# Declarations and nodes

The fields that a document declares and the nodes of its field tree, paired by their paths.
-/
namespace Schemata.Metadata

open FieldTree (root)

variable {types : TypeRegistry} {tree : FieldTree} {top fields : Members} {path : Path}
  {id child : NodeId} {name : String} {value : Json} {declaration : Members}

/-- The declarations of the fields that stand at the top of a document; there are none if the schema
has no fields. -/
def topFields (document : Json) : Members :=
  let schema := (document.object?.bind (Members.find? · "schema")).bind Json.object?
  let fields := (schema.bind (Members.find? · "fields")).bind Json.object?
  fields.getD []

/-- The fields that are declared beneath a path: at the top, in the declaration of an object, and in
the items of an array. What a declaration of another type has under these names declares nothing. -/
inductive DeclaredFields (top : Members) : Path → Members → Prop
  | top : DeclaredFields top Path.root top
  | object {above : Path} {fields nested declaration : Members} {name : String} :
      DeclaredFields top above fields → (name, .object declaration) ∈ fields →
      HoldsFields declaration nested →
      DeclaredFields top (above.child name) nested
  | items {above : Path} {fields nested declaration items : Members} {name : String} :
      DeclaredFields top above fields → (name, .object declaration) ∈ fields →
      HoldsItems declaration items → HoldsFields items nested →
      DeclaredFields top ((above.child name).child Path.wildcard) nested

/-- A value is written as the declaration of the field at a path. -/
def DeclaredAt (top : Members) (path : Path) (value : Json) : Prop :=
  ∃ above fields name,
    DeclaredFields top above fields ∧ (name, value) ∈ fields ∧ path = above.child name

/-! ## From declarations to nodes -/

/-- A node stands for the declaration of a field, and the nodes beneath it for what is nested there. -/
structure StandsFor
    (types : TypeRegistry) (tree : FieldTree) (name : String) (declaration : Members)
    (id : NodeId) : Prop where
  node : ∃ node, tree.node? id = some node ∧ node.name = name ∧
    DeclaresNode types tree declaration node
  nested : ∀ opened fields, Opens tree declaration id opened fields →
    Declares types tree fields (tree.children opened)

theorem StandsFor.name? (stands : StandsFor types tree name declaration id) :
    tree.name? id = some name := by
  obtain ⟨node, found, named, _⟩ := stands.node
  rw [FieldTree.name?, found, Option.map_some, named]

theorem Declares.exists_node
    {ids : List NodeId} (declares : Declares types tree fields ids)
    (written : (name, value) ∈ fields) :
    ∃ declaration id, value = .object declaration ∧ id ∈ ids ∧
      StandsFor types tree name declaration id := by
  induction declares with
  | nil => cases written
  | @cons _ declaration node id rest ids found named declares nested _ _ inRest =>
      rcases List.mem_cons.1 written with here | later
      · cases here
        exact ⟨declaration, id, rfl, List.mem_cons_self, ⟨node, found, named, declares⟩, nested⟩
      · obtain ⟨declaration, other, isObject, listed, stands⟩ := inRest later
        exact ⟨declaration, other, isObject, List.mem_cons_of_mem _ listed, stands⟩

theorem Declares.exists_declaration
    {ids : List NodeId} (declares : Declares types tree fields ids) (listed : id ∈ ids) :
    ∃ name declaration, (name, .object declaration) ∈ fields ∧
      StandsFor types tree name declaration id := by
  induction declares with
  | nil => cases listed
  | @cons name declaration node first rest ids found named declares nested _ _ inRest =>
      rcases List.mem_cons.1 listed with here | later
      · rw [here]
        exact ⟨name, declaration, List.mem_cons_self, ⟨node, found, named, declares⟩, nested⟩
      · obtain ⟨other, declaration, written, stands⟩ := inRest later
        exact ⟨other, declaration, List.mem_cons_of_mem _ written, stands⟩

theorem Declares.names
    {ids : List NodeId} (declares : Declares types tree fields ids) :
    ids.map tree.name? = fields.map fun member => some member.1 := by
  induction declares with
  | nil => rfl
  | cons found named _ _ _ _ inRest =>
      rw [List.map_cons, List.map_cons, inRest, FieldTree.name?, found, Option.map_some, named]

private theorem fullPath_of_child
    (wellFormed : tree.WellFormed) (listed : child ∈ tree.children id)
    (named : tree.name? child = some name) :
    tree.fullPath child = (tree.fullPath id).child name :=
  FieldTree.fullPath_of_parent (wellFormed.backed id child listed)
    (wellFormed.lt_of_child listed) named

theorem StandsFor.hasObject
    (stands : StandsFor types tree name declaration id)
    (holds : HoldsFields declaration fields) :
    tree.hasObject id = true := by
  obtain ⟨node, found, _, declares⟩ := stands.node
  obtain ⟨children, object⟩ := declares.shape.object_of_holdsFields holds
  rw [FieldTree.hasObject, found, Option.any_some, FieldNode.isObject, object]

theorem StandsFor.element
    {items : Members} (stands : StandsFor types tree name declaration id)
    (holdsItems : HoldsItems declaration items) :
    ∃ element node, tree.element? id = some element ∧ tree.node? element = some node ∧
      DeclaresElement types items node.shape := by
  obtain ⟨node, found, _, declares⟩ := stands.node
  have shape := declares.shape
  obtain ⟨element, array⟩ := shape.array_of_holdsItems holdsItems
  rw [array] at shape
  obtain ⟨others, below, holdsOthers, there, declaresElement, _⟩ := shape.exists_holdsItems
  rw [holdsItems.unique holdsOthers] at declaresElement
  refine ⟨element, below, ?_, there, declaresElement⟩
  rw [FieldTree.element?_eq_some_iff, FieldTree.shape?, found, Option.map_some, array]

theorem DeclaredFields.exists_object
    (wellFormed : tree.WellFormed) (all : Declares types tree top (tree.children root))
    (declared : DeclaredFields top path fields) :
    ∃ id, tree.hasObject id = true ∧ tree.fullPath id = path ∧
      Declares types tree fields (tree.children id) := by
  induction declared with
  | top =>
      exact ⟨root, wellFormed.rootObject, FieldTree.fullPath_of_top wellFormed.rootTop, all⟩
  | object _ written holds hypothesis =>
      obtain ⟨above, _, samePath, declares⟩ := hypothesis
      obtain ⟨_, id, ⟨⟩, listed, stands⟩ := declares.exists_node written
      refine ⟨id, stands.hasObject holds, ?_, stands.nested id _ (.object holds)⟩
      rw [fullPath_of_child wellFormed listed stands.name?, samePath]
  | items _ written holdsItems holds hypothesis =>
      obtain ⟨above, _, samePath, declares⟩ := hypothesis
      obtain ⟨_, id, ⟨⟩, listed, stands⟩ := declares.exists_node written
      obtain ⟨element, node, named, found, declaresElement⟩ := stands.element holdsItems
      have wildcard := (wellFormed.elements id element named).2.1
      have beneath := FieldTree.mem_children_of_element? named
      refine ⟨element, ?_, ?_, stands.nested element _ (.items holdsItems holds named)⟩
      · obtain ⟨children, object⟩ := declaresElement.object_of_holdsFields holds
        rw [FieldTree.hasObject, found, Option.any_some, FieldNode.isObject, object]
      · rw [fullPath_of_child wellFormed beneath wildcard,
          fullPath_of_child wellFormed listed stands.name?, samePath]

/-! ## From nodes to declarations -/

/-- A field stands for a declaration that is written at its path. -/
def IsDeclared (types : TypeRegistry) (tree : FieldTree) (top : Members) (id : NodeId) : Prop :=
  ∃ above fields name declaration,
    DeclaredFields top above fields ∧ (name, .object declaration) ∈ fields ∧
      tree.fullPath id = above.child name ∧ StandsFor types tree name declaration id

/-- An object holds the fields that are declared beneath its path. -/
def HoldsDeclared (types : TypeRegistry) (tree : FieldTree) (top : Members) (id : NodeId) : Prop :=
  ∃ fields, DeclaredFields top (tree.fullPath id) fields ∧
    Declares types tree fields (tree.children id)

theorem HoldsDeclared.isDeclared
    (holds : HoldsDeclared types tree top id) (wellFormed : tree.WellFormed)
    (listed : child ∈ tree.children id) :
    IsDeclared types tree top child := by
  obtain ⟨fields, declared, declares⟩ := holds
  obtain ⟨name, declaration, written, stands⟩ := declares.exists_declaration listed
  exact ⟨tree.fullPath id, fields, name, declaration, declared, written,
    fullPath_of_child wellFormed listed stands.name?, stands⟩

theorem IsDeclared.object
    (declared : IsDeclared types tree top id) (object : tree.hasObject id = true) :
    HoldsDeclared types tree top id := by
  obtain ⟨above, fields, name, declaration, beneath, written, samePath, stands⟩ := declared
  obtain ⟨node, found, _, declares⟩ := stands.node
  obtain ⟨children, shape⟩ := FieldTree.hasObject_iff.1 object
  rw [FieldTree.shape?, found, Option.map_some, Option.some.injEq] at shape
  have declaresShape := declares.shape
  rw [shape] at declaresShape
  obtain ⟨nested, holds⟩ := declaresShape.exists_holdsFields
  rw [HoldsDeclared, samePath]
  exact ⟨nested, .object beneath written holds, stands.nested id nested (.object holds)⟩

theorem IsDeclared.element
    (declared : IsDeclared types tree top id) (wellFormed : tree.WellFormed) {element : NodeId}
    (named : tree.element? id = some element) :
    (∃ node, tree.node? element = some node ∧ node.constraints = [] ∧ node.access = ∅) ∧
      (tree.hasObject element = true → HoldsDeclared types tree top element) := by
  obtain ⟨above, fields, name, declaration, beneath, written, samePath, stands⟩ := declared
  obtain ⟨node, found, _, declares⟩ := stands.node
  have array := FieldTree.element?_eq_some_iff.1 named
  rw [FieldTree.shape?, found, Option.map_some, Option.some.injEq] at array
  have declaresShape := declares.shape
  rw [array] at declaresShape
  obtain ⟨items, below, holdsItems, there, declaresElement, noAccess⟩ :=
    declaresShape.exists_holdsItems
  refine ⟨⟨below, there, declaresElement.constraints_eq_nil, noAccess⟩, fun object => ?_⟩
  obtain ⟨children, shape⟩ := FieldTree.hasObject_iff.1 object
  rw [FieldTree.shape?, there, Option.map_some, Option.some.injEq] at shape
  rw [shape] at declaresElement
  obtain ⟨nested, holds⟩ := declaresElement.exists_holdsFields
  have wildcard := (wellFormed.elements id element named).2.1
  have listed := FieldTree.mem_children_of_element? named
  rw [HoldsDeclared, fullPath_of_child wellFormed listed wildcard, samePath]
  exact ⟨nested, .items beneath written holdsItems holds,
    stands.nested element nested (.items holdsItems holds named)⟩

/-- An array is never an element itself, and so it is a field of some object. -/
theorem exists_object_above_array
    (wellFormed : tree.WellFormed) {array : NodeId} (named : tree.element? array = some id) :
    ∃ above, above < array ∧ tree.hasObject above = true ∧ array ∈ tree.children above := by
  have shape := FieldTree.element?_eq_some_iff.1 named
  have notRoot : array ≠ root := by
    intro atRoot
    have nothing := FieldTree.not_element?_of_hasObject wellFormed.rootObject
    rw [← atRoot, named] at nothing
    cases nothing
  obtain ⟨above, known, earlier, _⟩ :=
    wellFormed.listed array (FieldTree.lt_size_of_shape? shape) notRoot
  have listed := (wellFormed.mem_children_of_parent? known).1
  refine ⟨above, earlier, ?_, listed⟩
  rcases FieldTree.hasObject_or_element?_of_mem_children listed with object | isElement
  · exact object
  · rcases (wellFormed.elements above array isElement).2.2 with leaf | object
    · obtain ⟨type, constraints, isLeaf⟩ := FieldTree.hasLeaf_iff.1 leaf
      rw [shape] at isLeaf
      cases isLeaf
    · rw [FieldTree.not_element?_of_hasObject object] at named
      cases named

private theorem holdsDeclared_of_hasObject
    (wellFormed : tree.WellFormed) (all : Declares types tree top (tree.children root))
    (object : tree.hasObject id = true) :
    HoldsDeclared types tree top id := by
  -- The induction is on places, since an element is declared two nodes above it.
  induction id using Nat.strongRecOn with
  | ind id hypothesis =>
      by_cases atRoot : id = root
      · rw [atRoot, HoldsDeclared, FieldTree.fullPath_of_top wellFormed.rootTop]
        exact ⟨top, .top, all⟩
      · obtain ⟨children, shape⟩ := FieldTree.hasObject_iff.1 object
        obtain ⟨parent, known, earlier, _⟩ :=
          wellFormed.listed id (FieldTree.lt_size_of_shape? shape) atRoot
        have listed := (wellFormed.mem_children_of_parent? known).1
        rcases FieldTree.hasObject_or_element?_of_mem_children listed with isObject | named
        · have holds := hypothesis parent earlier isObject
          exact (holds.isDeclared wellFormed listed).object object
        · obtain ⟨above, before, isObject, inAbove⟩ :=
            exists_object_above_array wellFormed named
          have holds := hypothesis above (Nat.lt_trans before earlier) isObject
          have declared := holds.isDeclared wellFormed inAbove
          exact (declared.element wellFormed named).2 object

private theorem isDeclared_or_isElement
    (wellFormed : tree.WellFormed) (all : Declares types tree top (tree.children root))
    (inside : id < tree.size) (notRoot : id ≠ root) :
    IsDeclared types tree top id ∨ ∃ array, tree.element? array = some id := by
  obtain ⟨parent, known, _, _⟩ := wellFormed.listed id inside notRoot
  have listed := (wellFormed.mem_children_of_parent? known).1
  rcases FieldTree.hasObject_or_element?_of_mem_children listed with object | named
  · have holds := holdsDeclared_of_hasObject wellFormed all object
    exact Or.inl (holds.isDeclared wellFormed listed)
  · exact Or.inr ⟨parent, named⟩

private theorem bare_element
    (wellFormed : tree.WellFormed) (all : Declares types tree top (tree.children root))
    {array element : NodeId} (named : tree.element? array = some element) :
    ∃ node, tree.node? element = some node ∧ node.constraints = [] ∧ node.access = ∅ := by
  obtain ⟨above, _, object, listed⟩ := exists_object_above_array wellFormed named
  have holds := holdsDeclared_of_hasObject wellFormed all object
  exact ((holds.isDeclared wellFormed listed).element wellFormed named).1

private theorem child_injective
    {left right : Path} {leftName rightName : String}
    (same : left.child leftName = right.child rightName) :
    left = right ∧ leftName = rightName := by
  have segments := congrArg Path.segments same
  have ⟨sameAbove, sameLast⟩ := List.append_inj' segments rfl
  exact ⟨congrArg Path.mk sameAbove, List.singleton_injective sameLast⟩

private theorem child_ne_root (above : Path) (name : String) : above.child name ≠ Path.root := by
  intro same
  have segments := congrArg Path.segments same
  exact List.append_ne_nil_of_right_ne_nil _ (List.cons_ne_nil _ _) segments

theorem DeclaredFields.names
    (wellFormed : tree.WellFormed) (all : Declares types tree top (tree.children root))
    (declared : DeclaredFields top path fields) :
    (fields.map Prod.fst).Nodup ∧ ∀ member ∈ fields, member.1 ≠ Path.wildcard := by
  obtain ⟨id, object, _, declares⟩ := declared.exists_object wellFormed all
  constructor
  · have apart := wellFormed.namesApart id object
    rw [declares.names] at apart
    have named :
        (fields.map fun member => some member.1) = (fields.map Prod.fst).map some := by
      rw [List.map_map]
      rfl
    rw [named] at apart
    exact apart.of_map some
  · intro member written
    obtain ⟨declaration, child, _, listed, stands⟩ := declares.exists_node written
    obtain ⟨name, named, isFieldName⟩ := wellFormed.fieldsNamed id child object listed
    rw [stands.name?] at named
    rw [Option.some.inj named]
    exact isFieldName.notWildcard

private theorem eq_of_written
    {left right : Json} (apart : (fields.map Prod.fst).Nodup) (writtenLeft : (name, left) ∈ fields)
    (writtenRight : (name, right) ∈ fields) :
    left = right := by
  have same := List.inj_on_of_nodup_map apart writtenLeft writtenRight rfl
  exact congrArg Prod.snd same

theorem DeclaredFields.unique
    (wellFormed : tree.WellFormed) (all : Declares types tree top (tree.children root))
    {otherPath : Path} {others : Members} (declared : DeclaredFields top path fields)
    (declaredOthers : DeclaredFields top otherPath others) (samePath : otherPath = path) :
    others = fields := by
  induction declared generalizing otherPath others with
  | top =>
      cases declaredOthers with
      | top => rfl
      | object _ _ _ => exact (child_ne_root _ _ samePath).elim
      | items _ _ _ _ => exact (child_ne_root _ _ samePath).elim
  | object declared written holds hypothesis =>
      cases declaredOthers with
      | top => exact (child_ne_root _ _ samePath.symm).elim
      | object declaredThere writtenThere holdsThere =>
          obtain ⟨sameAbove, rfl⟩ := child_injective samePath
          cases hypothesis declaredThere sameAbove
          cases eq_of_written (declared.names wellFormed all).1 written writtenThere
          exact holds.unique holdsThere
      | items _ _ _ _ =>
          have isWildcard := (child_injective samePath).2
          exact ((declared.names wellFormed all).2 _ written isWildcard.symm).elim
  | items declared written holdsItems holds hypothesis =>
      cases declaredOthers with
      | top => exact (child_ne_root _ _ samePath.symm).elim
      | object declaredThere writtenThere _ =>
          have isWildcard := (child_injective samePath).2
          exact ((declaredThere.names wellFormed all).2 _ writtenThere isWildcard).elim
      | items declaredThere writtenThere holdsItemsThere holdsThere =>
          obtain ⟨sameAbove, rfl⟩ := child_injective (child_injective samePath).1
          cases hypothesis declaredThere sameAbove
          cases eq_of_written (declared.names wellFormed all).1 written writtenThere
          cases holdsItems.unique holdsItemsThere
          exact holds.unique holdsThere

/-! ## Documents -/

private theorem declares_of_fieldTreeOf
    {written : Option Json} (success : fieldTreeOf types written = .ok tree) :
    tree.WellFormed ∧
      Declares types tree ((written.bind Json.object?).getD []) (tree.children root) := by
  cases written with
  | none =>
      cases success
      exact ⟨FieldTree.wellFormed_empty, .nil⟩
  | some value =>
      obtain ⟨isObject, success⟩ := check_bind_eq_ok_iff.1 success
      obtain ⟨members, object⟩ := discard_eq_ok_iff.1 isObject
      rw [membersOf_eq_ok_iff] at object
      cases filled : Attempt.outcome (fill types value root) ∅ with
      | mk result grown =>
          rw [filled] at success
          cases result with
          | error error => cases success
          | ok done =>
              cases success
              rw [object] at filled
              have all :=
                fills_fill members ∅ grown root FieldTree.wellFormed_empty rfl filled
              rw [object]
              exact ⟨all.wellFormed, all.declares⟩

theorem exists_of_read
    {document : Json} {metadata : EntityMetadata} (accepted : read types document = .ok metadata) :
    ∃ (members schema : Members) (name : String) (version : Version) (fields : FieldTree)
        (access : Access),
      document = .object members ∧ members.find? "schema" = some (.object schema) ∧
        fieldTreeOf types (schema.find? "fields") = .ok fields ∧
          metadata.schema = .propose name version fields access := by
  unfold read at accepted
  obtain ⟨members, isObject, accepted⟩ := bind_eq_ok_iff.1 accepted
  dsimp only at accepted
  split at accepted
  · cases accepted
  · obtain ⟨info, _, accepted⟩ := bind_eq_ok_iff.1 accepted
    split at accepted
    · cases accepted
    · next value found =>
        obtain ⟨schema, isSchema, accepted⟩ := bind_eq_ok_iff.1 accepted
        obtain ⟨result, isResult, same⟩ := bind_eq_ok_iff.1 accepted
        cases same
        unfold schemaOf at isResult
        obtain ⟨version, _, isResult⟩ := bind_eq_ok_iff.1 isResult
        obtain ⟨access, _, isResult⟩ := bind_eq_ok_iff.1 isResult
        obtain ⟨fields, isTree, same⟩ := bind_eq_ok_iff.1 isResult
        cases same
        rw [membersOf_eq_ok_iff] at isObject isSchema
        exact ⟨members, schema, _, version, fields, access, isObject, isSchema ▸ found, isTree, rfl⟩

private theorem declares_of_read
    {document : Json} {metadata : EntityMetadata} (accepted : read types document = .ok metadata) :
    metadata.schema.fields.WellFormed ∧
      Declares types metadata.schema.fields (topFields document)
        (metadata.schema.fields.children root) := by
  obtain ⟨members, schema, name, version, fields, access, rfl, found, isTree, isSchema⟩ :=
    exists_of_read accepted
  have atTop :
      topFields (.object members) = ((schema.find? "fields").bind Json.object?).getD [] := by
    rw [topFields, Json.object?, Option.bind_some, found, Option.bind_some, Json.object?,
      Option.bind_some]
  rw [isSchema, atTop]
  exact declares_of_fieldTreeOf isTree

/-- Of every document that is read, the declared fields and the nodes of the field tree are paired by
their paths: each declared field has one node, which is as it is declared, and beneath the node of an
object the fields have the order in which they are written. Nothing but the root and the elements of
arrays stands in the tree without a declaration, and an element has neither constraints nor access of
its own. -/
theorem fields_as_declared
    {document : Json} {metadata : EntityMetadata} (accepted : read types document = .ok metadata) :
    let tree := metadata.schema.fields
    (∀ path fields, DeclaredFields (topFields document) path fields →
      ∃ id, tree.hasObject id = true ∧ tree.fullPath id = path ∧
        (tree.children id).map tree.name? = fields.map fun member => some member.1) ∧
      (∀ path value, DeclaredAt (topFields document) path value →
        ∃ declaration id node,
          value = .object declaration ∧ tree.node? id = some node ∧ tree.fullPath id = path ∧
            DeclaresNode types tree declaration node ∧
            (∀ other, tree.contains other = true → tree.fullPath other = path → other = id) ∧
            ∀ other, DeclaredAt (topFields document) path other → other = value) ∧
      (∀ id, tree.contains id = true → id ≠ root →
        (∃ value, DeclaredAt (topFields document) (tree.fullPath id) value) ∨
          ∃ array, tree.element? array = some id) ∧
      ∀ array element, tree.element? array = some element →
        ∃ node, tree.node? element = some node ∧ node.constraints = [] ∧ node.access = ∅ := by
  intro tree
  obtain ⟨wellFormed, all⟩ := declares_of_read accepted
  refine ⟨?_, ?_, ?_, ?_⟩
  · intro path fields declared
    obtain ⟨id, object, samePath, declares⟩ := declared.exists_object wellFormed all
    exact ⟨id, object, samePath, declares.names⟩
  · rintro path value ⟨above, fields, name, declared, written, samePath⟩
    obtain ⟨parent, object, parentPath, declares⟩ := declared.exists_object wellFormed all
    obtain ⟨declaration, id, isObject, listed, stands⟩ := declares.exists_node written
    obtain ⟨node, found, _, declaresNode⟩ := stands.node
    have fullPath : tree.fullPath id = path := by
      rw [fullPath_of_child wellFormed listed stands.name?, parentPath, samePath]
    refine ⟨declaration, id, node, isObject, found, fullPath, declaresNode, ?_, ?_⟩
    · intro other inside otherPath
      obtain ⟨otherNode, otherFound⟩ := Option.isSome_iff_exists.1 inside
      have resolved := wellFormed.resolve?_fullPath (FieldTree.lt_size_of_node? otherFound)
      have resolvedHere := wellFormed.resolve?_fullPath (FieldTree.lt_size_of_node? found)
      rw [otherPath, ← fullPath, resolvedHere] at resolved
      exact (Option.some.inj resolved).symm
    · rintro other ⟨otherAbove, otherFields, otherName, otherDeclared, otherWritten, otherPath⟩
      rw [otherPath] at samePath
      obtain ⟨sameAbove, rfl⟩ := child_injective samePath
      cases declared.unique wellFormed all otherDeclared sameAbove
      exact eq_of_written (declared.names wellFormed all).1 otherWritten written
  · intro id inside notRoot
    obtain ⟨node, found⟩ := Option.isSome_iff_exists.1 inside
    have below := FieldTree.lt_size_of_node? found
    rcases isDeclared_or_isElement wellFormed all below notRoot with declared | isElement
    · obtain ⟨above, fields, name, declaration, beneath, written, samePath, _⟩ := declared
      exact Or.inl ⟨.object declaration, above, fields, name, beneath, written, samePath⟩
    · exact Or.inr isElement
  · intro array element named
    exact bare_element wellFormed all named

def numberDeclaration : Members :=
  [("type", .string "string"),
    ("constraints", .object [("required", .bool false), ("minLength", .number (.ofUInt64 3))]),
    ("access", .object [("find", .array [.string "clerk"])])]

def orderDocument : Json :=
  let line : Members :=
    [("type", .string "object"), ("fields", .object [("sku", .object numberDeclaration)])]
  let fields : Members :=
    [("lines", .object [("items", .object line), ("type", .string "array")])]
  .object [
    ("entityInfo", .object [
      ("name", .string "Order"), ("datastore", .object [("backend", .string "mongo")])]),
    ("schema", .object [("version", .string "1.0.0"), ("fields", .object fields)])]

theorem number_of_lines_as_declared :
    ∃ metadata, read (.standard 0) orderDocument = .ok metadata ∧
      ∃ id node, metadata.schema.fields.node? id = some node ∧
        metadata.schema.fields.fullPath id = ⟨["lines", "*", "sku"]⟩ ∧
          DeclaresNode (.standard 0) metadata.schema.fields numberDeclaration node := by
  have isOk : (read (.standard 0) orderDocument).isOk = true := by rfl
  obtain ⟨metadata, accepted⟩ := exists_of_isOk isOk
  have beneath :
      DeclaredFields (topFields orderDocument) ⟨["lines", "*"]⟩
        [("sku", .object numberDeclaration)] :=
    .items .top List.mem_cons_self ⟨rfl, rfl⟩ ⟨rfl, rfl⟩
  have declared :
      DeclaredAt (topFields orderDocument) ⟨["lines", "*", "sku"]⟩
        (.object numberDeclaration) :=
    ⟨_, _, _, beneath, List.mem_cons_self, rfl⟩
  obtain ⟨declaration, id, node, isObject, found, path, declares, _⟩ :=
    (fields_as_declared accepted).2.1 _ _ declared
  cases isObject
  exact ⟨metadata, accepted, id, node, found, path, declares⟩

end Schemata.Metadata

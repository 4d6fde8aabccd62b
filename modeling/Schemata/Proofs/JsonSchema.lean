import Schemata.JsonSchema
import Schemata.Proofs.FieldTree.DeclarationOrder
import Schemata.Proofs.FieldTree.Paths
import Schemata.Proofs.Json.Members

/-!
# Descriptions by recursion

What the description of a schema says of each node, told by recursion on the field tree, and why the
building with a stack of half-described objects ends with just that.
-/
namespace Schemata

open FieldTree (root)

/-- The keyword and the value under which a description states a constraint. That a leaf is required
is said elsewhere, and an enumeration cannot be told. -/
def Constraint.stated? : Constraint → Option (String × Json)
  | required => none
  | minLength length => some ("minLength", .number (.ofUInt64 length))
  | maxLength length => some ("maxLength", .number (.ofUInt64 length))
  | minimum bound => some ("minimum", .ofDouble bound)
  | maximum bound => some ("maximum", .ofDouble bound)
  | matching pattern => some ("pattern", .string pattern)
  | oneOf _ => none

namespace JsonSchema

/-- The description of a leaf: its type and, of the constraints of each kind, the last one. -/
structure DescribesLeaf
    (type : TypeRef) (constraints : List Constraint) (members : Members) : Prop where
  apart : (members.map Prod.fst).Nodup
  typed : members.find? "type" = some (.string type.name)
  stated :
    ∀ keyword, keyword ≠ "type" →
      members.find? keyword =
        (constraints.filterMap Constraint.stated?).reverse.lookup keyword

private theorem addConstraint_eq (members : Members) (constraint : Constraint) :
    addConstraint members constraint =
      Members.putAll members constraint.stated?.toList := by
  cases constraint <;> rfl

private theorem foldl_addConstraint (members : Members) (constraints : List Constraint) :
    constraints.foldl addConstraint members =
      Members.putAll members (constraints.filterMap Constraint.stated?) := by
  induction constraints generalizing members with
  | nil => rfl
  | cons constraint rest hypothesis =>
      rw [List.foldl_cons, hypothesis, addConstraint_eq, List.filterMap_cons]
      cases constraint.stated? <;> rfl

private theorem lookup_type_stated (constraints : List Constraint) :
    (constraints.filterMap Constraint.stated?).reverse.lookup "type" = none := by
  rw [List.lookup_eq_none_iff]
  intro entry listed
  obtain ⟨constraint, _, stated⟩ := List.mem_filterMap.1 (List.mem_reverse.1 listed)
  cases constraint <;> cases stated <;> simp

private theorem exists_leaf_eq (type : TypeRef) (constraints : List Constraint) :
    ∃ members, leaf type constraints = .object members ∧ DescribesLeaf type constraints members := by
  refine ⟨_, rfl, ?_⟩
  rw [foldl_addConstraint]
  constructor
  · have single : (([("type", .string type.name)] : Members).map Prod.fst).Nodup :=
      List.nodup_singleton "type"
    exact Members.nodup_putAll single _
  · rw [Members.find?_putAll, lookup_type_stated]
    rfl
  · intro keyword notType
    have notFirst : Members.find? [("type", .string type.name)] keyword = none := by
      simp [Members.find?, notType]
    rw [Members.find?_putAll, notFirst, Option.or_none]

variable {tree : FieldTree} {id element : NodeId} {children : List NodeId}

/-- What is said of a node of some shape, told from what is said of its children. -/
def describeShape (tree : FieldTree) : Option NodeShape → List (NodeId × Json) → Json
  | some (.leaf type constraints), _ => leaf type constraints
  | some (.object _), fields => object (fields.map fun field => (tree.nameAt field.1, field.2))
  | some (.array _), element :: _ => array element.2
  | _, _ => bareArray

def description (tree : FieldTree) (id : NodeId) : Json :=
  tree.fold (fun id parts => describeShape tree (tree.shape? id) parts) id

def fieldsOf (tree : FieldTree) (ids : List NodeId) : Members :=
  ids.map fun id => (tree.nameAt id, description tree id)

private theorem description_eq (linked : tree.Linked) (id : NodeId) :
    description tree id =
      describeShape tree (tree.shape? id)
        ((tree.children id).map fun child => (child, description tree child)) := by
  rw [description, linked.fold_eq]
  rfl

private theorem description_leaf
    (linked : tree.Linked) {type : TypeRef} {constraints : List Constraint}
    (shape : tree.shape? id = some (.leaf type constraints)) :
    description tree id = leaf type constraints := by
  rw [description_eq linked, shape, describeShape]

private theorem description_object
    (linked : tree.Linked) (shape : tree.shape? id = some (.object children)) :
    description tree id = object (fieldsOf tree children) := by
  rw [description_eq linked, shape, FieldTree.children_of_object shape, describeShape,
    List.map_map]
  rfl

private theorem description_array
    (linked : tree.Linked) (shape : tree.shape? id = some (.array element)) :
    description tree id = array (description tree element) := by
  rw [description_eq linked, shape, FieldTree.children_of_array shape, List.map_singleton,
    describeShape]

private theorem nodup_fieldsOf
    (wellFormed : tree.WellFormed) (shape : tree.shape? id = some (.object children)) :
    ((fieldsOf tree children).map Prod.fst).Nodup := by
  have apart := wellFormed.namesApart id (FieldTree.hasObject_iff.2 ⟨children, shape⟩)
  rw [FieldTree.children_of_object shape] at apart
  have named : children.map tree.name? = (children.map tree.nameAt).map some := by
    rw [List.map_map]
    apply List.map_congr_left
    intro child listed
    rw [← FieldTree.children_of_object shape] at listed
    exact FieldTree.name?_eq_some_nameAt (wellFormed.lt_size_of_child listed)
  rw [named] at apart
  rw [fieldsOf, List.map_map]
  exact apart.of_map some

/-- Building returns a result from some stack on, within a number of turns. -/
inductive EndsWith (tree : FieldTree) : List Frame → Nat → Members → Prop where
  | returned (properties : Members) (slot : Slot) (more : Nat) :
      EndsWith tree [⟨[], properties, slot⟩] (more + 1) properties
  | placed
      {done outer : Frame} {below : List Frame} {steps : Nat} {result : Members}
      (finished : done.remaining = [])
      (ends : EndsWith tree (outer.place done :: below) steps result) :
      EndsWith tree (done :: outer :: below) (steps + 1) result
  | visited
      {id : NodeId} {node : FieldNode} {frame : Frame} {below : List Frame} {steps : Nat}
      {result : Members} (found : tree.node? id = some node)
      (ends : EndsWith tree (visit tree frame node ++ below) steps result) :
      EndsWith tree ({ frame with remaining := id :: frame.remaining } :: below) (steps + 1) result

variable {stack below : List Frame} {steps more : Nat} {result : Members}

theorem EndsWith.mono (ends : EndsWith tree stack steps result) (enough : steps ≤ more) :
    EndsWith tree stack more result := by
  induction ends generalizing more with
  | returned properties slot least =>
      obtain ⟨rest, rfl⟩ : ∃ rest, more = rest + 1 := ⟨more - 1, by omega⟩
      exact .returned properties slot rest
  | placed finished ends hypothesis =>
      obtain ⟨rest, rfl⟩ : ∃ rest, more = rest + 1 := ⟨more - 1, by omega⟩
      exact .placed finished (hypothesis (Nat.le_of_succ_le_succ enough))
  | visited found ends hypothesis =>
      obtain ⟨rest, rfl⟩ : ∃ rest, more = rest + 1 := ⟨more - 1, by omega⟩
      exact .visited found (hypothesis (Nat.le_of_succ_le_succ enough))

theorem EndsWith.build_eq (ends : EndsWith tree stack steps result) :
    build tree steps stack = result := by
  induction ends with
  | returned properties slot more => rfl
  | placed finished ends hypothesis =>
      simp only [build, finished, hypothesis]
  | visited found ends hypothesis =>
      simp only [build, found, hypothesis]

/-- Whatever stands below, building describes a field that is on top, in two steps for each node of
the field. -/
def DescribesField (tree : FieldTree) (id : NodeId) : Prop :=
  ∀ (frame : Frame) (below : List Frame) (steps : Nat) (result : Members),
    EndsWith tree (frame.describe (tree.nameAt id) (description tree id) :: below) steps result →
      EndsWith tree ({ frame with remaining := id :: frame.remaining } :: below)
        (steps + 2 * (tree.subtree id).length) result

private theorem endsWith_fields
    {ids : List NodeId} (each : ∀ id ∈ ids, DescribesField tree id) (frame : Frame)
    (nothingElse : frame.remaining = [])
    (ends :
      EndsWith tree
        ({ frame with properties := frame.properties.putAll (fieldsOf tree ids) } :: below)
        steps result) :
    EndsWith tree ({ frame with remaining := ids } :: below)
      (steps + 2 * (ids.flatMap tree.subtree).length) result := by
  induction ids generalizing frame with
  | nil =>
      obtain ⟨remaining, properties, slot⟩ := frame
      subst nothingElse
      exact ends
  | cons id rest hypothesis =>
      have others :
          EndsWith tree
            ({ frame.describe (tree.nameAt id) (description tree id) with remaining := rest } ::
              below)
            (steps + 2 * (rest.flatMap tree.subtree).length) result :=
        hypothesis (fun later listed => each later (List.mem_cons_of_mem _ listed)) _
          nothingElse ends
      have first :=
        each id List.mem_cons_self { frame with remaining := rest } below _ result others
      apply first.mono
      rw [List.flatMap_cons, List.length_append]
      omega

/-- An object that is opened on top of a frame is described, and then it is put into its slot. -/
theorem endsWith_opened
    (each : ∀ child ∈ children, DescribesField tree child)
    (apart : ((fieldsOf tree children).map Prod.fst).Nodup) {frame : Frame} {slot : Slot}
    (ends :
      EndsWith tree (frame.place ⟨[], fieldsOf tree children, slot⟩ :: below) steps result) :
    EndsWith tree (⟨children, [], slot⟩ :: frame :: below)
      (steps + 1 + 2 * (children.flatMap tree.subtree).length) result := by
  have put : Members.putAll [] (fieldsOf tree children) = fieldsOf tree children :=
    Members.putAll_of_nodup apart
  have finished :
      EndsWith tree (⟨[], fieldsOf tree children, slot⟩ :: frame :: below) (steps + 1) result :=
    .placed rfl ends
  rw [← put] at finished
  exact endsWith_fields each ⟨[], [], slot⟩ rfl finished

/-- A field is described when it is met, or an object is opened with which it is described later. The
object is the field itself or its element. -/
theorem visit_cases
    (wellFormed : tree.WellFormed) {node : FieldNode} (found : tree.node? id = some node)
    (frame : Frame) :
    visit tree frame node = [frame.describe node.name (description tree id)] ∨
      ∃ opened children slot,
        tree.shape? opened = some (.object children) ∧ id ≤ opened ∧
          (tree.subtree opened).length ≤ (tree.subtree id).length ∧
          visit tree frame node = [⟨children, [], slot⟩, frame] ∧
          frame.place ⟨[], fieldsOf tree children, slot⟩ =
            frame.describe node.name (description tree id) := by
  have linked := wellFormed.toLinked
  have shape : tree.shape? id = some node.shape := by
    rw [FieldTree.shape?, found, Option.map_some]
  cases kind : node.shape with
  | leaf type constraints =>
      rw [kind] at shape
      left
      rw [description_leaf linked shape, visit, kind]
  | object children =>
      rw [kind] at shape
      right
      refine ⟨id, children, .field node.name, shape, Nat.le_refl _, Nat.le_refl _, ?_, ?_⟩
      · rw [visit, kind]
      · rw [description_object linked shape, Frame.place]
  | array element =>
      rw [kind] at shape
      rw [description_array linked shape]
      obtain ⟨later, _, kinds⟩ :=
        wellFormed.elements id element (FieldTree.element?_eq_some_iff.2 shape)
      rcases kinds with isLeaf | isObject
      · obtain ⟨type, constraints, atElement⟩ := FieldTree.hasLeaf_iff.1 isLeaf
        left
        rw [description_leaf linked atElement]
        rw [FieldTree.shape?] at atElement
        simp only [visit, kind, atElement]
      · obtain ⟨children, atElement⟩ := FieldTree.hasObject_iff.1 isObject
        right
        refine ⟨element, children, .items node.name, atElement, Nat.le_of_lt later, ?_, ?_, ?_⟩
        · rw [linked.subtree_eq id, FieldTree.children_of_array shape, List.flatMap_singleton]
          exact Nat.le_succ _
        · rw [FieldTree.shape?] at atElement
          simp only [visit, kind, atElement]
        · rw [description_object linked atElement, Frame.place]

private theorem describesField (wellFormed : tree.WellFormed) (inside : id < tree.size) :
    DescribesField tree id := by
  have linked := wellFormed.toLinked
  induction id using tree.induction_from_back with
  | step id hypothesis =>
      intro frame below steps result ends
      obtain ⟨node, found⟩ := FieldTree.exists_node_of_lt_size inside
      rw [FieldTree.nameAt, FieldTree.name?, found, Option.map_some, Option.getD_some] at ends
      rcases visit_cases wellFormed found frame with
        atOnce | ⟨opened, children, slot, shape, fromHere, within, visited, placed⟩
      · have first : EndsWith tree (visit tree frame node ++ below) steps result := by
          rwa [atOnce]
        apply (EndsWith.visited found first).mono
        rw [linked.subtree_eq, List.length_cons]
        omega
      · have each (child : NodeId) (listed : child ∈ children) : DescribesField tree child := by
          rw [← FieldTree.children_of_object shape] at listed
          have inside := linked.lt_size_of_child listed
          have later := Nat.lt_of_le_of_lt fromHere (linked.lt_of_child listed)
          exact hypothesis child later inside inside
        rw [← placed] at ends
        have first := endsWith_opened each (nodup_fieldsOf wellFormed shape) ends
        have met : visit tree frame node ++ below = ⟨children, [], slot⟩ :: frame :: below := by
          rw [visited]
          rfl
        rw [← met] at first
        apply (EndsWith.visited found first).mono
        rw [linked.subtree_eq opened, FieldTree.children_of_object shape, List.length_cons] at within
        omega

/-- Building ends with the descriptions of the fields beneath the root. -/
theorem endsWith_fieldsOf (wellFormed : tree.WellFormed) :
    EndsWith tree [⟨tree.children root, [], .document⟩] (2 * tree.size)
      (fieldsOf tree (tree.children root)) := by
  have linked := wellFormed.toLinked
  obtain ⟨children, shape⟩ := FieldTree.hasObject_iff.1 wellFormed.rootObject
  have apart := nodup_fieldsOf wellFormed shape
  rw [← FieldTree.children_of_object shape] at apart
  have put :
      Members.putAll [] (fieldsOf tree (tree.children root)) =
        fieldsOf tree (tree.children root) :=
    Members.putAll_of_nodup apart
  have each (child : NodeId) (listed : child ∈ tree.children root) : DescribesField tree child :=
    describesField wellFormed (linked.lt_size_of_child listed)
  have finished :
      EndsWith tree [⟨[], fieldsOf tree (tree.children root), .document⟩] 1
        (fieldsOf tree (tree.children root)) :=
    .returned _ _ 0
  rw [← put] at finished
  have ended := endsWith_fields each ⟨[], [], .document⟩ rfl finished
  rw [put] at ended
  apply ended.mono
  have nodes : 0 < tree.size := wellFormed.root_lt_size
  have count := wellFormed.flatMap_subtree_perm.length_eq
  rw [FieldTree.fields, List.length_tail, FieldTree.ids, List.length_range] at count
  omega

/-- Of a tree that operations made, a description says just what recursion on the tree says, and it
demands the required leaves under paths that lead back to them. -/
theorem describe_of_operations
    (growths : List FieldTree.Growth) (schema : EntitySchema) (dialect : String) :
    let tree := FieldTree.empty.growAll growths
    (∀ id type constraints, tree.shape? id = some (.leaf type constraints) →
      ∃ members,
        description tree id = .object members ∧ DescribesLeaf type constraints members) ∧
      (∀ id children, tree.shape? id = some (.object children) →
        description tree id =
          .object [
            ("type", .string "object"),
            ("properties", .object (children.map fun child =>
              (tree.nameAt child, description tree child)))]) ∧
      (∀ id element, tree.shape? id = some (.array element) →
        (tree.hasLeaf element = true ∨ tree.hasObject element = true) ∧
          description tree id =
            .object [("type", .string "array"), ("items", description tree element)]) ∧
      EndsWith tree [⟨tree.children root, [], .document⟩] (2 * tree.size)
        ((tree.children root).map fun child => (tree.nameAt child, description tree child)) ∧
      ∃ (members : Members) (required : List NodeId),
        describe { schema with fields := tree } dialect = .object members ∧
          members.find? "properties" =
            some (.object ((tree.children root).map fun child =>
              (tree.nameAt child, description tree child))) ∧
          members.find? "required" =
            some (.array (required.map fun id => .string (tree.fullPath id).render)) ∧
          required.Nodup ∧
          (∀ id, id ∈ required ↔
            ∃ type constraints,
              tree.shape? id = some (.leaf type constraints) ∧ .required ∈ constraints) ∧
          ∀ id ∈ required,
            ∃ path,
              Path.parse (tree.fullPath id).render = .ok path ∧
                tree.resolve? path = some id := by
  intro tree
  have wellFormed : tree.WellFormed := FieldTree.wellFormed_empty.growAll growths
  have linked := wellFormed.toLinked
  have ends := endsWith_fieldsOf wellFormed
  refine ⟨?_, ?_, ?_, ends, ?_⟩
  · intro id type constraints shape
    rw [description_leaf linked shape]
    exact exists_leaf_eq type constraints
  · intro id children shape
    exact description_object linked shape
  · intro id element shape
    have elements := wellFormed.elements id element (FieldTree.element?_eq_some_iff.2 shape)
    exact ⟨elements.2.2, description_array linked shape⟩
  · obtain ⟨once, all⟩ := wellFormed.required_once
    refine ⟨_, tree.declarationOrder.filter tree.isRequired, rfl, ?_, ?_, once, ?_, ?_⟩
    · have built := (ends.mono (Nat.le_succ _)).build_eq
      exact congrArg (fun fields => some (Json.object fields)) built
    · have texts :
          ((tree.requiredFields.map Path.render).map Json.string) =
            (tree.declarationOrder.filter tree.isRequired).map fun id =>
              .string (tree.fullPath id).render := by
        rw [FieldTree.requiredFields, List.map_map, List.map_map]
        rfl
      rw [← texts]
      rfl
    · intro id
      rw [all, FieldTree.isRequired_iff]
    · intro id listed
      obtain ⟨type, constraints, shape, _⟩ := FieldTree.isRequired_iff.1 ((all id).1 listed)
      have inside := FieldTree.lt_size_of_shape? shape
      exact ⟨_, wellFormed.parse_render_fullPath id, wellFormed.resolve?_fullPath inside⟩

end JsonSchema
end Schemata

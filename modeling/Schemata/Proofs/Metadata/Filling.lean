import Schemata.Proofs.Metadata.DeclaredNodes

/-!
# How declared fields are added

All fields of an object stand in the tree before the first nested one, and of several nested objects
the last one is filled first.
-/
namespace Schemata.Metadata

open Attempt (outcome)

variable {types : TypeRegistry} {tree later : FieldTree} {parent id : NodeId} {name : String}
  {field : Path} {declaration : Members}

/-- The tree with a declared field that has neither constraints nor access yet. -/
inductive AddsField
    (types : TypeRegistry) (tree : FieldTree) (parent : NodeId) (name : String)
    (declaration : Members) : Option NodeId → FieldTree → Prop
  | leaf {typeName : String} {type : TypeRef} :
      NamesLeafType types declaration typeName type → typeName ≠ "array" →
      AddsField types tree parent name declaration none
        (tree.attach parent name (.leaf type []))
  | object {fields : Members} :
      HoldsFields declaration fields →
      AddsField types tree parent name declaration (some tree.size)
        (tree.attach parent name (.object []))
  | leaves {items : Members} {typeName : String} {type : TypeRef} :
      HoldsItems declaration items → NamesLeafType types items typeName type →
      AddsField types tree parent name declaration none
        (tree.attachArray parent name (.leaf type []))
  | objects {items fields : Members} :
      HoldsItems declaration items → HoldsFields items fields →
      AddsField types tree parent name declaration (some (tree.size + 1))
        (tree.attachArray parent name (.object []))

theorem outcome_grow {α : Type} (step : Attempt FieldTree FieldTreeError α) (tree : FieldTree) :
    outcome (grow step) tree =
      ((outcome step tree).1.mapError .fieldTree, (outcome step tree).2) :=
  rfl

theorem outcome_grow_eq_ok_iff
    {α : Type} {step : Attempt FieldTree FieldTreeError α} {answer : α} :
    outcome (grow step) tree = (.ok answer, later) ↔ outcome step tree = (.ok answer, later) := by
  rw [outcome_grow]
  constructor
  · intro success
    have answered := mapError_eq_ok_iff.1 (congrArg Prod.fst success)
    have state := congrArg Prod.snd success
    exact Prod.ext answered state
  · intro success
    rw [success, mapError_ok]

theorem outcome_addField_eq_ok_iff
    {α : Type} {grown : FieldTree → FieldTree} {places : FieldTree → α} {answer : α} :
    outcome (grow (FieldTree.addField parent name grown places)) tree = (.ok answer, later) ↔
      tree.Addable parent name ∧ answer = places tree ∧ later = grown tree := by
  rw [outcome_grow_eq_ok_iff, FieldTree.outcome_addField, ← FieldTree.checkField_eq_ok_iff]
  cases tree.checkField parent name with
  | error error => simp
  | ok passed => simp [eq_comm]

theorem addsField_of_addField
    {opened : Option NodeId}
    (success :
      outcome (addField types parent name field declaration) tree = (.ok (id, opened), later)) :
    tree.Addable parent name ∧ id = tree.size ∧
      AddsField types tree parent name declaration opened later := by
  unfold addField at success
  obtain ⟨typeName, named, success⟩ := Attempt.outcome_ofExcept_bind_eq_ok_iff.1 success
  rw [typeName_eq_ok_iff] at named
  split at success
  · obtain ⟨_, grown, added, success⟩ := Attempt.outcome_bind_eq_ok_iff.1 success
    obtain ⟨addable, rfl, rfl⟩ := outcome_addField_eq_ok_iff.1 added
    obtain ⟨_, checked, success⟩ := Attempt.outcome_ofExcept_bind_eq_ok_iff.1 success
    obtain ⟨fields, held⟩ := checkFields_eq_ok_iff.1 checked
    obtain ⟨same, rfl⟩ := Attempt.outcome_pure_eq_ok_iff.1 success
    cases same
    exact ⟨addable, rfl, .object ⟨named, held⟩⟩
  · obtain ⟨items, held, success⟩ := Attempt.outcome_ofExcept_bind_eq_ok_iff.1 success
    rw [itemsOf_eq_ok_iff] at held
    obtain ⟨itemType, itemNamed, success⟩ := Attempt.outcome_ofExcept_bind_eq_ok_iff.1 success
    rw [typeName_eq_ok_iff] at itemNamed
    split at success
    · obtain ⟨places, grown, added, success⟩ := Attempt.outcome_bind_eq_ok_iff.1 success
      obtain ⟨addable, rfl, rfl⟩ := outcome_addField_eq_ok_iff.1 added
      obtain ⟨_, checked, success⟩ := Attempt.outcome_ofExcept_bind_eq_ok_iff.1 success
      obtain ⟨fields, heldFields⟩ := checkFields_eq_ok_iff.1 checked
      obtain ⟨same, rfl⟩ := Attempt.outcome_pure_eq_ok_iff.1 success
      cases same
      exact ⟨addable, rfl, .objects ⟨named, held⟩ ⟨itemNamed, heldFields⟩⟩
    · next notObject =>
        obtain ⟨type, typed, success⟩ := Attempt.outcome_ofExcept_bind_eq_ok_iff.1 success
        obtain ⟨registered, scalar⟩ := leafType_eq_ok_iff.1 typed
        obtain ⟨array, grown, added, success⟩ := Attempt.outcome_bind_eq_ok_iff.1 success
        obtain ⟨addable, rfl, rfl⟩ := outcome_addField_eq_ok_iff.1 added
        obtain ⟨same, rfl⟩ := Attempt.outcome_pure_eq_ok_iff.1 success
        cases same
        exact ⟨addable, rfl,
          .leaves ⟨named, held⟩ ⟨itemNamed, notObject, registered, scalar⟩⟩
  · next notObject notArray =>
      obtain ⟨type, typed, success⟩ := Attempt.outcome_ofExcept_bind_eq_ok_iff.1 success
      obtain ⟨registered, scalar⟩ := leafType_eq_ok_iff.1 typed
      obtain ⟨leaf, grown, added, success⟩ := Attempt.outcome_bind_eq_ok_iff.1 success
      obtain ⟨addable, rfl, rfl⟩ := outcome_addField_eq_ok_iff.1 added
      obtain ⟨same, rfl⟩ := Attempt.outcome_pure_eq_ok_iff.1 success
      cases same
      exact ⟨addable, rfl, .leaf ⟨named, notObject, registered, scalar⟩ notArray⟩

section Refining

variable {node : FieldNode}

private theorem eq_change_of_pure
    (success : outcome (pure () : Building Unit) tree = (.ok (), later)) :
    later = tree.change id fun node => node := by
  obtain ⟨_, same⟩ := Attempt.outcome_pure_eq_ok_iff.1 success
  rw [FieldTree.change_self, same]

private theorem refines_of_forM
    {constraints : List Constraint}
    (success :
      outcome (constraints.forM fun constraint => grow (FieldTree.addConstraint id constraint))
          tree =
        (.ok (), later))
    (found : tree.node? id = some node) :
    ∃ edit, FieldTree.Refines edit ∧ later = tree.change id edit ∧
      (edit node).type? = node.type? ∧ (edit node).access = node.access ∧
        (edit node).constraints = node.constraints ++ constraints := by
  induction constraints generalizing tree node with
  | nil =>
      exact ⟨_, .self, eq_change_of_pure success, rfl, rfl, (List.append_nil _).symm⟩
  | cons constraint rest hypothesis =>
      obtain ⟨_, between, first, success⟩ := Attempt.outcome_bind_eq_ok_iff.1 success
      rw [outcome_grow_eq_ok_iff, FieldTree.outcome_addConstraint] at first
      split at first
      · next hasLeaf =>
          cases first
          have leaf : node.isLeaf = true := by
            rwa [FieldTree.hasLeaf, found, Option.any_some] at hasLeaf
          have constrained :
              (tree.change id (FieldTree.constrain constraint)).node? id =
                some (FieldTree.constrain constraint node) := by
            rw [FieldTree.node?_change, if_pos rfl, found, Option.map_some]
          obtain ⟨type, access, constraints⟩ := FieldTree.constrain_of_leaf leaf constraint
          obtain ⟨edit, refines, changed, sameType, sameAccess, added⟩ :=
            hypothesis success constrained
          refine ⟨_, (FieldTree.refines_constrain constraint).comp refines, ?_, ?_, ?_, ?_⟩
          · rw [changed, FieldTree.change_change]
          · exact sameType.trans type
          · exact sameAccess.trans access
          · rw [added, constraints, List.append_assoc, List.singleton_append]
      · cases first

private theorem refines_of_addConstraints
    (success : outcome (addConstraints id field declaration) tree = (.ok (), later))
    (found : tree.node? id = some node) (noneYet : node.constraints = []) :
    ∃ edit, FieldTree.Refines edit ∧ later = tree.change id edit ∧
      (edit node).type? = node.type? ∧ (edit node).access = node.access ∧
        WritesConstraints declaration (edit node).constraints := by
  unfold addConstraints at success
  split at success
  · next nothing =>
      refine ⟨_, .self, eq_change_of_pure success, rfl, rfl, ?_⟩
      rw [noneYet]
      exact .none nothing
  · next value written =>
      obtain ⟨constraints, read, success⟩ := Attempt.outcome_ofExcept_bind_eq_ok_iff.1 success
      obtain ⟨members, object, writes⟩ := writes_of_constraintsOf read
      obtain ⟨edit, refines, changed, type, access, added⟩ := refines_of_forM success found
      rw [noneYet, List.nil_append] at added
      refine ⟨edit, refines, changed, type, access, ?_⟩
      rw [added]
      rw [object] at written
      exact .some written writes

private theorem grantAll_eq
    (tree : FieldTree) (id : NodeId) (entries : List (Operation × List String)) :
    entries.foldl (fun tree entry => tree.grant id entry.1 entry.2) tree =
      tree.change id fun node =>
        { node with
          access := entries.foldl (fun held entry => Access.grant held entry.1 entry.2)
            node.access } := by
  induction entries generalizing tree with
  | nil => exact (FieldTree.change_self tree id).symm
  | cons entry rest hypothesis =>
      rw [List.foldl_cons, hypothesis, FieldTree.grant, FieldTree.change_change]
      rfl

private theorem refines_of_addAccess
    (success : outcome (addAccess id declaration) tree = (.ok (), later))
    (noneYet : node.access = ∅) :
    ∃ edit, FieldTree.Refines edit ∧ later = tree.change id edit ∧
      (edit node).type? = node.type? ∧ (edit node).constraints = node.constraints ∧
        WritesAccess declaration (edit node).access := by
  unfold addAccess at success
  split at success
  · next nothing =>
      refine ⟨_, .self, eq_change_of_pure success, rfl, rfl, ?_⟩
      rw [noneYet]
      exact .none nothing
  · next value written =>
      obtain ⟨access, read, success⟩ := Attempt.outcome_ofExcept_bind_eq_ok_iff.1 success
      obtain ⟨members, object, granted⟩ := find?_of_ofJson (mapError_eq_ok_iff.1 read)
      have changed :
          later =
            access.entries.foldl (fun tree entry => tree.grant id entry.1 entry.2) tree :=
        (congrArg Prod.snd success).symm
      rw [grantAll_eq] at changed
      rw [object] at written
      refine ⟨_, FieldTree.refines_access fun held =>
          access.entries.foldl (fun held entry => Access.grant held entry.1 entry.2) held,
        changed, rfl, rfl, .some written fun operation roles => ?_⟩
      rw [noneYet, find?_grantEntries]
      exact granted operation roles

end Refining

/-- What is found of a declared field once it stands in the tree. The object for its nested fields, if
it opens one, is still without fields. -/
structure Outlined
    (types : TypeRegistry) (tree later : FieldTree) (parent : NodeId) (above : FieldNode)
    (name : String) (declaration : Members) (opened : Option NodeId) (node : FieldNode) :
    Prop where
  gains : tree.Gains later parent above
  wellFormed : later.WellFormed
  found : later.node? tree.size = some node
  named : node.name = name
  shape : DeclaresShape types later declaration node.shape
  opens : ∀ place, opened = some place ↔
    ∃ fields, Opens later declaration tree.size place fields
  empty : ∀ place, opened = some place → later.shape? place = some (.object [])

variable {above node : FieldNode} {opened : Option NodeId} {edit : FieldNode → FieldNode}

theorem DeclaresShape.refined
    (declares : DeclaresShape types tree declaration node.shape)
    (refines : FieldTree.Refines edit) (sameType : (edit node).type? = node.type?)
    (elsewhere : ∀ element, node.element? = some element →
      later.node? element = tree.node? element) :
    DeclaresShape types later declaration (edit node).shape := by
  cases kind : node.shape with
  | leaf type constraints =>
      have typed : (edit node).type? = some type := by
        rw [sameType, FieldNode.type?, kind]
      obtain ⟨refined, shape⟩ := FieldNode.exists_shape_of_type? typed
      rw [kind] at declares
      rw [shape]
      cases declares with
      | leaf names notArray => exact .leaf names notArray
  | object children =>
      have notLeaf : node.isLeaf = false := by rw [FieldNode.isLeaf, kind]
      rw [kind] at declares
      rw [refines.shape_of_not_isLeaf node notLeaf, kind]
      obtain ⟨fields, holds⟩ := declares.exists_holdsFields
      exact .object holds
  | array element =>
      have notLeaf : node.isLeaf = false := by rw [FieldNode.isLeaf, kind]
      have named : node.element? = some element := by rw [FieldNode.element?, kind]
      rw [kind] at declares
      rw [refines.shape_of_not_isLeaf node notLeaf, kind]
      obtain ⟨items, below, holdsItems, found, declaresElement, noAccess⟩ :=
        declares.exists_holdsItems
      rw [← elsewhere element named] at found
      exact .array holdsItems found declaresElement noAccess

theorem Outlined.change
    (outlined : Outlined types tree later parent above name declaration opened node)
    (refines : FieldTree.Refines edit) (sameType : (edit node).type? = node.type?) :
    Outlined types tree (later.change tree.size edit) parent above name declaration opened
      (edit node) := by
  have found : (later.change tree.size edit).node? tree.size = some (edit node) := by
    rw [FieldTree.node?_change, if_pos rfl, outlined.found, Option.map_some]
  have element :
      (later.change tree.size edit).element? tree.size = later.element? tree.size := by
    rw [FieldTree.element?_eq_bind, FieldTree.element?_eq_bind, found, outlined.found]
    exact refines.element? node
  refine ⟨outlined.gains.change edit, outlined.wellFormed.change refines _, found,
    (refines.name node).trans outlined.named, ?_, ?_, ?_⟩
  · apply outlined.shape.refined refines sameType
    intro below named
    have behind : tree.size < below := by
      apply (outlined.wellFormed.elements tree.size below _).1
      rw [FieldTree.element?_eq_bind, outlined.found]
      exact named
    rw [FieldTree.node?_change, if_neg (Nat.ne_of_lt behind)]
  · intro place
    rw [outlined.opens]
    simp only [opens_iff_of_element? element]
  · intro place isOpened
    exact FieldTree.shape?_change_of_object refines (outlined.empty place isOpened) _

theorem AddsField.outlined
    (adds : AddsField types tree parent name declaration opened later)
    (addable : tree.Addable parent name) (before : tree.WellFormed) :
    ∃ above node, Outlined types tree later parent above name declaration opened node ∧
      node.constraints = [] ∧ node.access = ∅ := by
  obtain ⟨above, found, object⟩ := FieldTree.exists_node_of_any addable.beneathObject
  have attached (shape : NodeShape) :
      (tree.attach parent name shape).node? tree.size =
        some ⟨name, some parent, shape, ∅⟩ := by
    rw [FieldTree.node?_attach found, if_pos rfl]
  have arrayStands (element : NodeShape) :
      (tree.attachArray parent name element).node? tree.size =
        some ⟨name, some parent, .array (tree.size + 1), ∅⟩ := by
    rw [FieldTree.node?_attachArray found, if_neg (Nat.ne_of_lt (Nat.lt_succ_self _)),
      if_pos rfl]
  have elementStands (element : NodeShape) :
      (tree.attachArray parent name element).node? (tree.size + 1) =
        some ⟨Path.wildcard, some tree.size, element, ∅⟩ := by
    rw [FieldTree.node?_attachArray found, if_pos rfl]
  cases adds with
  | leaf names notArray =>
      refine ⟨above, _, ⟨FieldTree.gains_attach found object name _,
        before.attach addable (.leaf _), attached _, rfl, .leaf names notArray, ?_, nofun⟩,
        rfl, rfl⟩
      intro place
      simp [names.opens_nothing notArray]
  | object holds =>
      refine ⟨above, _, ⟨FieldTree.gains_attach found object name _,
        before.attach addable .object, attached _, rfl, .object holds, ?_, ?_⟩, rfl, rfl⟩
      · intro place
        rw [holds.opens_iff, Option.some.injEq]
      · rintro place ⟨⟩
        rw [FieldTree.shape?, attached, Option.map_some]
  | leaves holdsItems names =>
      refine ⟨above, _, ⟨FieldTree.gains_attachArray found object name _,
        before.attachArray addable (.leaf _), arrayStands _, rfl,
        .array holdsItems (elementStands _) (.leaf names) rfl, ?_, nofun⟩, rfl, rfl⟩
      intro place
      simp [holdsItems.opens_nothing names]
  | objects holdsItems holds =>
      have named :
          (tree.attachArray parent name (.object [])).element? tree.size =
            some (tree.size + 1) := by
        rw [FieldTree.element?_eq_some_iff, FieldTree.shape?, arrayStands, Option.map_some]
      refine ⟨above, _, ⟨FieldTree.gains_attachArray found object name _,
        before.attachArray addable .object, arrayStands _, rfl,
        .array holdsItems (elementStands _) (.object holds) rfl, ?_, ?_⟩, rfl, rfl⟩
      · intro place
        rw [holdsItems.opens_iff holds named, Option.some.injEq]
      · rintro place ⟨⟩
        rw [FieldTree.shape?, elementStands, Option.map_some]

/-- What a successful declaration of a field leaves behind. -/
theorem outlined_of_declare
    {value : Json} (before : tree.WellFormed)
    (success : outcome (declare types parent name value) tree = (.ok opened, later)) :
    ∃ declaration above node, value = .object declaration ∧
      Outlined types tree later parent above name declaration opened node ∧
        DeclaresNode types later declaration node := by
  unfold declare at success
  obtain ⟨state, between, got, success⟩ := Attempt.outcome_bind_eq_ok_iff.1 success
  cases got
  obtain ⟨declaration, isObject, success⟩ := Attempt.outcome_ofExcept_bind_eq_ok_iff.1 success
  obtain ⟨⟨id, opens⟩, grown, added, success⟩ := Attempt.outcome_bind_eq_ok_iff.1 success
  obtain ⟨_, constrained, addedConstraints, success⟩ := Attempt.outcome_bind_eq_ok_iff.1 success
  obtain ⟨_, granted, addedAccess, success⟩ := Attempt.outcome_bind_eq_ok_iff.1 success
  obtain ⟨same, rfl⟩ := Attempt.outcome_pure_eq_ok_iff.1 success
  cases same
  obtain ⟨addable, rfl, adds⟩ := addsField_of_addField added
  obtain ⟨above, node, outlined, noConstraints, noAccess⟩ := adds.outlined addable before
  obtain ⟨constrain, refines, rfl, type, access, writes⟩ :=
    refines_of_addConstraints addedConstraints outlined.found noConstraints
  obtain ⟨grant, refinesAgain, rfl, typeAgain, constraints, writesAccess⟩ :=
    refines_of_addAccess addedAccess (access.trans noAccess)
  have final := (outlined.change refines type).change refinesAgain typeAgain
  refine ⟨declaration, above, _, membersOf_eq_ok_iff.1 isObject, final, final.shape, ?_,
    writesAccess⟩
  rw [constraints]
  exact writes

end Schemata.Metadata

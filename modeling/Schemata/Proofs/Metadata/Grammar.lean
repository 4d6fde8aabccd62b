import Schemata.Proofs.Metadata.Nesting

/-!
# The grammar of declared fields

Which values declare the fields of a schema. What is wrong with any other value is found in what is
written there, in a type that is named, in a name, or in a constraint on what is no leaf.
-/
namespace Schemata.Metadata

/-- A part of a declaration, if it is there, is an object with none but certain members. -/
def HoldsOnly (declaration : Members) (part : String) (allowed : String × Json → Prop) : Prop :=
  ∀ value, declaration.find? part = some value →
    ∃ members, value = .object members ∧ ∀ member ∈ members, allowed member

/-- A declaration of a leaf: its type is a registered one that is no container. -/
def DeclaresLeaf (types : TypeRegistry) (declaration : Members) : Prop :=
  ∃ name type, NamesLeafType types declaration name type ∧ name ≠ "array"

/-- The declaration of an array's items: of objects with fields, or of a registered type that is no
container. -/
inductive IsItems (types : TypeRegistry) (items : Members) : Prop
  | objects {fields : Members} : HoldsFields items fields → IsItems types items
  | leaves {name : String} {type : TypeRef} :
      NamesLeafType types items name type → IsItems types items

/-- A declaration of a leaf, of an object with fields, or of an array with items. -/
inductive IsTyped (types : TypeRegistry) (declaration : Members) : Prop
  | leaf : DeclaresLeaf types declaration → IsTyped types declaration
  | object {fields : Members} : HoldsFields declaration fields → IsTyped types declaration
  | array {items : Members} :
      HoldsItems declaration items → IsItems types items → IsTyped types declaration

/-- A declaration, whatever the fields that it holds are. Constraints are for leaves, but for those
that ask for nothing. -/
structure IsDeclaration (types : TypeRegistry) (declaration : Members) : Prop where
  typed : IsTyped types declaration
  constraints :
    HoldsOnly declaration "constraints" fun member =>
      Constraint.isWaiver member = true ∨
        DeclaresLeaf types declaration ∧ ∃ constraint, Constraint.Writes member constraint
  access : HoldsOnly declaration "access" fun member => ∃ entry, GrantedBy member entry

/-- A member that declares a field: a name for it, and its declaration. -/
structure DeclaresField (types : TypeRegistry) (member : String × Json) : Prop where
  named : IsFieldName member.1
  declared : ∃ declaration, member.2 = .object declaration ∧ IsDeclaration types declaration

/-- An object of fields, at any depth. -/
inductive IsFields (types : TypeRegistry) : Json → Prop
  | object {fields : Members} :
      (∀ member ∈ fields, DeclaresField types member) →
      (∀ nested, NestedIn nested fields → IsFields types (.object nested)) →
      IsFields types (.object fields)

variable {types : TypeRegistry} {tree : FieldTree} {field : Path} {declaration : Members}
  {α β : Type}

section Types

variable {items : Members} {typeName other : String}

private theorem eq_of_named
    (named : declaration.find? "type" = some (.string typeName))
    (also : declaration.find? "type" = some (.string other)) :
    typeName = other :=
  Json.string.inj (Option.some.inj (named.symm.trans also))

theorem IsItems.exists_typeName (isItems : IsItems types items) :
    ∃ name, items.find? "type" = some (.string name) := by
  cases isItems with
  | objects holds => exact ⟨_, holds.named⟩
  | leaves names => exact ⟨_, names.named⟩

theorem IsItems.holdsFields
    (isItems : IsItems types items) (named : items.find? "type" = some (.string "object")) :
    ∃ fields, items.find? "fields" = some (.object fields) := by
  cases isItems with
  | objects holds => exact ⟨_, holds.held⟩
  | leaves names => exact (names.notObject (eq_of_named names.named named)).elim

theorem IsItems.exists_leafType
    (isItems : IsItems types items) (named : items.find? "type" = some (.string typeName))
    (notObject : typeName ≠ "object") :
    ∃ type, leafType types typeName field = .ok type := by
  cases isItems with
  | objects holds => exact (notObject (eq_of_named named holds.named)).elim
  | leaves names =>
      cases eq_of_named names.named named
      exact ⟨_, leafType_eq_ok_iff.2 ⟨names.registered, names.scalar⟩⟩

theorem IsTyped.exists_typeName (isTyped : IsTyped types declaration) :
    ∃ name, declaration.find? "type" = some (.string name) := by
  cases isTyped with
  | leaf declares =>
      obtain ⟨name, type, names, _⟩ := declares
      exact ⟨name, names.named⟩
  | object holds => exact ⟨_, holds.named⟩
  | array holdsItems _ => exact ⟨_, holdsItems.named⟩

theorem IsTyped.holdsFields
    (isTyped : IsTyped types declaration)
    (named : declaration.find? "type" = some (.string "object")) :
    ∃ fields, declaration.find? "fields" = some (.object fields) := by
  cases isTyped with
  | leaf declares =>
      obtain ⟨name, type, names, _⟩ := declares
      exact (names.notObject (eq_of_named names.named named)).elim
  | object holds => exact ⟨_, holds.held⟩
  | array holdsItems _ => exact absurd (eq_of_named holdsItems.named named) (by decide)

theorem IsTyped.holdsItems
    (isTyped : IsTyped types declaration)
    (named : declaration.find? "type" = some (.string "array")) :
    ∃ items, declaration.find? "items" = some (.object items) ∧ IsItems types items := by
  cases isTyped with
  | leaf declares =>
      obtain ⟨name, type, names, notArray⟩ := declares
      exact (notArray (eq_of_named names.named named)).elim
  | object holds => exact absurd (eq_of_named holds.named named) (by decide)
  | array holdsItems isItems => exact ⟨_, holdsItems.held, isItems⟩

theorem IsTyped.exists_leafType
    (isTyped : IsTyped types declaration)
    (named : declaration.find? "type" = some (.string typeName)) (notObject : typeName ≠ "object")
    (notArray : typeName ≠ "array") :
    ∃ type, leafType types typeName field = .ok type := by
  cases isTyped with
  | leaf declares =>
      obtain ⟨name, type, names, _⟩ := declares
      cases eq_of_named names.named named
      exact ⟨type, leafType_eq_ok_iff.2 ⟨names.registered, names.scalar⟩⟩
  | object holds => exact (notObject (eq_of_named named holds.named)).elim
  | array holdsItems _ => exact (notArray (eq_of_named named holdsItems.named)).elim

theorem DeclaresShape.isLeaf_iff
    {node : FieldNode} (declares : DeclaresShape types tree declaration node.shape) :
    node.isLeaf = true ↔ DeclaresLeaf types declaration := by
  rw [FieldNode.isLeaf]
  generalize node.shape = shape at declares
  cases declares with
  | leaf names notArray => exact ⟨fun _ => ⟨_, _, names, notArray⟩, fun _ => rfl⟩
  | object holds =>
      refine iff_of_false Bool.false_ne_true fun declaresLeaf => ?_
      obtain ⟨name, type, names, _⟩ := declaresLeaf
      exact names.not_holdsFields holds
  | array holdsItems _ _ _ =>
      refine iff_of_false Bool.false_ne_true fun declaresLeaf => ?_
      obtain ⟨name, type, names, notArray⟩ := declaresLeaf
      exact names.not_holdsItems notArray holdsItems

end Types

section Parts

variable {part : String} {allowed : String × Json → Prop}

theorem holdsOnly_of_find?_eq_none (nothing : declaration.find? part = none) :
    HoldsOnly declaration part allowed := by
  intro value written
  rw [nothing] at written
  cases written

theorem holdsOnly_iff {value : Json} (written : declaration.find? part = some value) :
    HoldsOnly declaration part allowed ↔
      ∃ members, value = .object members ∧ ∀ member ∈ members, allowed member := by
  constructor
  · intro holds
    exact holds value written
  · intro isObject other also
    cases written.symm.trans also
    exact isObject

end Parts

private theorem exists_constraintOf_iff {member : String × Json} :
    (∃ found, constraintOf field member.1 member.2 = .ok found) ↔
      Constraint.isWaiver member = true ∨ ∃ constraint, Constraint.Writes member constraint := by
  obtain ⟨name, value⟩ := member
  constructor
  · rintro ⟨found, read⟩
    rcases writes_of_constraintOf read with ⟨constraint, _, writes, _⟩ | ⟨_, waiver⟩
    · exact Or.inr ⟨constraint, writes⟩
    · exact Or.inl waiver
  · rintro (waiver | ⟨constraint, writes⟩)
    · unfold Constraint.isWaiver at waiver
      split at waiver
      · next isWaiver =>
          cases isWaiver
          exact ⟨none, rfl⟩
      · cases waiver
    · cases writes with
      | minLength length =>
          refine ⟨some (.minLength length), ?_⟩
          simp [constraintOf, Constraint.name, Constraint.reader?, Constraint.lengthOf?,
            Json.number?, Number.ofUInt64, Number.toUInt64?]
      | maxLength length =>
          refine ⟨some (.maxLength length), ?_⟩
          simp [constraintOf, Constraint.name, Constraint.reader?, Constraint.lengthOf?,
            Json.number?, Number.ofUInt64, Number.toUInt64?]
      | _ => exact ⟨_, rfl⟩

theorem exists_constraintsOf_iff {value : Json} :
    (∃ constraints, constraintsOf field value = .ok constraints) ↔
      ∃ members, value = .object members ∧
        ∀ member ∈ members,
          Constraint.isWaiver member = true ∨
            ∃ constraint, Constraint.Writes member constraint := by
  constructor
  · rintro ⟨constraints, read⟩
    obtain ⟨members, object, rest⟩ := bind_eq_ok_iff.1 read
    obtain ⟨found, each, _⟩ := bind_eq_ok_iff.1 rest
    refine ⟨members, membersOf_eq_ok_iff.1 object, fun member listed => ?_⟩
    exact exists_constraintOf_iff.1 (exists_mapM_eq_ok_iff.1 ⟨found, each⟩ member listed)
  · rintro ⟨members, rfl, allowed⟩
    obtain ⟨found, each⟩ :=
      exists_mapM_eq_ok_iff.2 fun member listed => exists_constraintOf_iff.2 (allowed member listed)
    refine ⟨found.reduceOption, bind_eq_ok_iff.2 ⟨members, rfl, ?_⟩⟩
    exact bind_eq_ok_iff.2 ⟨found, each, rfl⟩

/-- What is read of an object of constraints is nothing if none of them asks for anything. -/
theorem constraintsOf_eq_nil_iff
    {members : Members} {constraints : List Constraint}
    (read : constraintsOf field (.object members) = .ok constraints) :
    constraints = [] ↔ ∀ member ∈ members, Constraint.isWaiver member = true := by
  obtain ⟨_, ⟨⟩, writes⟩ := writes_of_constraintsOf read
  constructor
  · rintro rfl
    rw [List.forall₂_nil_right_iff, List.filter_eq_nil_iff] at writes
    simpa using writes
  · intro waived
    rw [List.filter_eq_nil_iff.2 (by simpa using waived), List.forall₂_nil_left_iff] at writes
    exact writes

theorem exists_access_iff {value : Json} :
    (∃ access, Access.ofJson value = .ok access) ↔
      ∃ members, value = .object members ∧ ∀ member ∈ members, ∃ entry, GrantedBy member entry := by
  simp only [← readGrant_eq_ok_iff, ← exists_mapM_eq_ok_iff]
  constructor
  · rintro ⟨access, read⟩
    cases value with
    | object members =>
        rw [Access.ofJson, map_eq_pure_bind] at read
        obtain ⟨entries, each, _⟩ := bind_eq_ok_iff.1 read
        exact ⟨members, rfl, entries, each⟩
    | _ => cases read
  · rintro ⟨members, rfl, entries, each⟩
    exact ⟨_, congrArg (SortedMap.ofList <$> ·) each⟩

/-- The error of a field for which the tree has no place: what is above it is no object, or has a
field of that name. -/
inductive IsMisplacement : MetadataError → Prop
  | duplicateField (field : Path) : IsMisplacement (.fieldTree (.duplicateField field))
  | notComposite (field : Path) : IsMisplacement (.fieldTree (.notComposite field))

/-- Reading does not fail for want of a place. -/
def ReadsInPlace (found : Except MetadataError α) : Prop :=
  ∀ error, found = .error error → ¬IsMisplacement error

private theorem readsInPlace_ok (value : α) : ReadsInPlace (.ok value) :=
  nofun

private theorem readsInPlace_malformed (fault : Malformation) :
    ReadsInPlace (malformed fault : Except MetadataError α) := by
  rintro _ ⟨⟩
  nofun

private theorem readsInPlace_elim
    {found : Option α} {fault : Malformation} {next : α → Except MetadataError β}
    (reads : ∀ value, ReadsInPlace (next value)) :
    ReadsInPlace (found.elim (malformed fault) next) := by
  cases found with
  | none => exact readsInPlace_malformed fault
  | some value => exact reads value

theorem ReadsInPlace.bind
    {found : Except MetadataError α} {next : α → Except MetadataError β}
    (first : ReadsInPlace found) (second : ∀ value, ReadsInPlace (next value)) :
    ReadsInPlace (found >>= next) := by
  intro error failed
  rcases bind_eq_error_iff.1 failed with failed | ⟨value, _, failed⟩
  · exact first error failed
  · exact second value error failed

theorem readsInPlace_membersOf (part : DocumentPart) (value : Json) :
    ReadsInPlace (membersOf part value) :=
  readsInPlace_elim readsInPlace_ok

theorem readsInPlace_typeName (declaration : Members) (field : Path) :
    ReadsInPlace (typeName declaration field) :=
  readsInPlace_elim readsInPlace_ok

theorem readsInPlace_leafType (types : TypeRegistry) (name : String) (field : Path) :
    ReadsInPlace (leafType types name field) := by
  unfold leafType
  split
  · rintro _ ⟨⟩
    nofun
  · split
    · exact readsInPlace_malformed _
    · exact readsInPlace_ok _

theorem readsInPlace_itemsOf (declaration : Members) (field : Path) :
    ReadsInPlace (itemsOf declaration field) := by
  unfold itemsOf
  split
  · exact readsInPlace_malformed _
  · exact readsInPlace_membersOf _ _

theorem readsInPlace_checkFields (declaration : Members) (field : Path) :
    ReadsInPlace (checkFields declaration field) := by
  unfold checkFields
  split
  · exact readsInPlace_malformed _
  · exact (readsInPlace_membersOf _ _).bind fun _ => readsInPlace_ok _

private theorem readsInPlace_constraintOf (field : Path) (name : String) (value : Json) :
    ReadsInPlace (constraintOf field name value) := by
  unfold constraintOf
  split
  · exact readsInPlace_elim fun _ => readsInPlace_ok _
  · split
    · exact readsInPlace_malformed _
    · exact readsInPlace_elim fun _ => readsInPlace_ok _

theorem readsInPlace_constraintsOf (field : Path) (value : Json) :
    ReadsInPlace (constraintsOf field value) := by
  refine (readsInPlace_membersOf _ _).bind fun members => ?_
  refine ReadsInPlace.bind ?_ fun _ => readsInPlace_ok _
  intro error failed
  obtain ⟨_, member, _, _, _, failed⟩ := mapM_eq_error_iff.1 failed
  exact readsInPlace_constraintOf _ _ _ error failed

theorem readsInPlace_shaped (reading : Except ShapeFault α) : ReadsInPlace (shaped reading) := by
  intro error failed
  obtain ⟨fault, _, rfl⟩ := mapError_eq_error_iff.1 failed
  nofun

end Schemata.Metadata

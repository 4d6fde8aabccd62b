import Mathlib.Data.List.ReduceOption
import Schemata.Metadata.Fields
import Schemata.Proofs.Entity.Info

/-!
# What a declaration says of its field

The constraints, the access and the type that are written in the declaration of a field, and that
just these are read from it.
-/
namespace Schemata

/-- A member of an object of constraints that states a constraint. -/
inductive Constraint.Writes : String × Json → Constraint → Prop
  | required : Writes ("required", .bool true) .required
  | minLength (length : UInt64) :
      Writes ("minLength", .number (.ofUInt64 length)) (.minLength length)
  | maxLength (length : UInt64) :
      Writes ("maxLength", .number (.ofUInt64 length)) (.maxLength length)
  | minimum (bound : Number) : Writes ("minimum", .number bound) (.minimum bound.toDouble)
  | maximum (bound : Number) : Writes ("maximum", .number bound) (.maximum bound.toDouble)
  | matching (pattern : String) : Writes ("matches", .string pattern) (.matching pattern)
  | oneOf (enumeration : String) : Writes ("enum", .string enumeration) (.oneOf enumeration)

/-- A member that states that a leaf is not required. -/
def Constraint.isWaiver : String × Json → Bool
  | ("required", .bool false) => true
  | _ => false

theorem Constraint.eq_ofUInt64_of_lengthOf?
    {value : Json} {length : UInt64} (read : lengthOf? value = some length) :
    value = .number (.ofUInt64 length) := by
  cases value with
  | number number =>
      cases number with
      | int whole range =>
          have known : (Number.int whole range).toUInt64? = some length := read
          rw [Number.toUInt64?] at known
          split at known
          · next notNegative =>
              have size : whole.toNat < 2 ^ 64 := by omega
              have back : (UInt64.ofNat whole.toNat).toNat = whole.toNat := by
                rw [UInt64.toNat_ofNat', Nat.mod_eq_of_lt size]
              rw [← Option.some.inj known]
              simp only [Number.ofUInt64, back, Int.toNat_of_nonneg notNegative]
          · cases known
      | double value finite => cases read
  | _ => cases read

/-- What the reader of a constraint's name reads from a value is written there. -/
theorem Constraint.writes_of_reader?
    {name : String} {value : Json} {read : Json → Option Constraint} {constraint : Constraint}
    (known : reader? name = some read) (success : read value = some constraint) :
    Writes (name, value) constraint := by
  unfold reader? at known
  split at known
  · cases known
    obtain ⟨length, found, rfl⟩ := Option.map_eq_some_iff.1 success
    rw [eq_ofUInt64_of_lengthOf? found]
    exact .minLength length
  · cases known
    obtain ⟨length, found, rfl⟩ := Option.map_eq_some_iff.1 success
    rw [eq_ofUInt64_of_lengthOf? found]
    exact .maxLength length
  · cases known
    cases value with
    | number bound =>
        cases success
        exact .minimum bound
    | _ => cases success
  · cases known
    cases value with
    | number bound =>
        cases success
        exact .maximum bound
    | _ => cases success
  · cases known
    cases value with
    | string pattern =>
        cases success
        exact .matching pattern
    | _ => cases success
  · cases known
    cases value with
    | string enumeration =>
        cases success
        exact .oneOf enumeration
    | _ => cases success
  · cases known

namespace Operation

private theorem name_injective {left right : Operation} (same : left.name = right.name) :
    left = right := by
  cases left <;> cases right <;> first | rfl | exact absurd same (by decide)

private theorem name_of_readName {name : String} {operation : Operation}
    (read : readName name = .ok operation) :
    name = operation.name := by
  unfold readName at read
  cases found : ofName? name with
  | none =>
      rw [found] at read
      cases read
  | some known =>
      rw [found] at read
      cases read
      have named := List.find?_some found
      exact (of_decide_eq_true named).symm

end Operation

namespace Metadata

variable {field : Path} {declaration : Members}

private theorem elim_malformed_eq_ok_iff
    {α β : Type} {found : Option α} {fault : Malformation} {next : α → Except MetadataError β}
    {result : β} :
    found.elim (malformed fault) next = .ok result ↔
      ∃ value, found = some value ∧ next value = .ok result := by
  cases found with
  | none => simp [malformed]
  | some value => simp

theorem membersOf_eq_ok_iff {part : DocumentPart} {value : Json} {members : Members} :
    membersOf part value = .ok members ↔ value = .object members := by
  rw [membersOf, elim_malformed_eq_ok_iff]
  cases value <;> simp [Json.object?]

theorem writes_of_constraintOf
    {name : String} {value : Json} {found : Option Constraint}
    (read : constraintOf field name value = .ok found) :
    (∃ constraint, found = some constraint ∧ Constraint.Writes (name, value) constraint ∧
        Constraint.isWaiver (name, value) = false) ∨
      found = none ∧ Constraint.isWaiver (name, value) = true := by
  unfold constraintOf at read
  split at read
  · next isRequired =>
      obtain ⟨required, isBool, same⟩ := elim_malformed_eq_ok_iff.1 read
      rw [isRequired]
      cases value with
      | bool required =>
          cases isBool
          cases same
          cases required with
          | true => exact Or.inl ⟨_, rfl, .required, rfl⟩
          | false => exact Or.inr ⟨rfl, rfl⟩
      | _ => cases isBool
  · next notRequired =>
      split at read
      · cases read
      · next reader known =>
          obtain ⟨constraint, success, same⟩ := elim_malformed_eq_ok_iff.1 read
          cases same
          have noWaiver : Constraint.isWaiver (name, value) = false := by
            unfold Constraint.isWaiver
            split
            · next isWaiver =>
                cases isWaiver
                exact (notRequired rfl).elim
            · rfl
          exact Or.inl ⟨constraint, rfl, Constraint.writes_of_reader? known success, noWaiver⟩

/-- The constraints that are written in a declaration, in written order. -/
inductive WritesConstraints (declaration : Members) : List Constraint → Prop
  | none : declaration.find? "constraints" = none → WritesConstraints declaration []
  | some {members : Members} {constraints : List Constraint} :
      declaration.find? "constraints" = some (.object members) →
      List.Forall₂ Constraint.Writes
        (members.filter fun member => !Constraint.isWaiver member) constraints →
      WritesConstraints declaration constraints

theorem writes_of_constraintsOf
    {value : Json} {constraints : List Constraint}
    (read : constraintsOf field value = .ok constraints) :
    ∃ members, value = .object members ∧
      List.Forall₂ Constraint.Writes
        (members.filter fun member => !Constraint.isWaiver member) constraints := by
  obtain ⟨members, object, rest⟩ := bind_eq_ok_iff.1 read
  obtain ⟨found, each, same⟩ := bind_eq_ok_iff.1 rest
  cases same
  refine ⟨members, membersOf_eq_ok_iff.1 object, ?_⟩
  have pairs := forall₂_of_mapM each
  clear each object rest read
  induction pairs with
  | nil => exact .nil
  | @cons member one members others readOne _ hypothesis =>
      rcases writes_of_constraintOf readOne with
        ⟨constraint, rfl, writes, noWaiver⟩ | ⟨rfl, waiver⟩
      · rw [List.filter_cons_of_pos (by rw [noWaiver]; rfl), List.reduceOption_cons_of_some]
        exact .cons writes hypothesis
      · rw [List.filter_cons_of_neg (by rw [waiver]; decide), List.reduceOption_cons_of_none]
        exact hypothesis

/-- The access that is written in a declaration. Of several lists of roles for one operation the last
one counts. -/
inductive WritesAccess (declaration : Members) : Access → Prop
  | none : declaration.find? "access" = none → WritesAccess declaration ∅
  | some {members : Members} {access : Access} :
      declaration.find? "access" = some (.object members) →
      (∀ operation roles,
        access.find? operation = some roles ↔
          members.reverse.lookup operation.name = some (.ofTexts roles)) →
      WritesAccess declaration access

private theorem eq_ofTexts_of_asList {value : Json} {texts : List String}
    (read : value.asList Json.asText = .ok texts) :
    value = .ofTexts texts := by
  cases value with
  | array items =>
      have each : items.mapM Json.asText = .ok texts := read
      have pairs := forall₂_of_mapM each
      rw [Json.ofTexts]
      congr 1
      clear each read
      induction pairs with
      | nil => rfl
      | @cons item text items texts readOne _ hypothesis =>
          cases item with
          | string found =>
              cases readOne
              rw [List.map_cons, hypothesis]
          | _ => cases readOne
  | _ => cases read

private theorem ofTexts_injective {left right : List String}
    (same : Json.ofTexts left = Json.ofTexts right) :
    left = right := by
  have items := Json.array.inj same
  exact List.map_injective_iff.2 (fun _ _ => Json.string.inj) items

/-- An entry of an access map and the member that it is read from. -/
def GrantedBy (member : String × Json) (entry : Operation × List String) : Prop :=
  member.1 = entry.1.name ∧ member.2 = .ofTexts entry.2

/-- What is read for a member of an access map. -/
theorem readGrant_eq_ok_iff {member : String × Json} {entry : Operation × List String} :
    (do
        let operation ← Operation.readName member.1
        return (operation, ← member.2.asList Json.asText)) =
        Except.ok entry ↔
      GrantedBy member entry := by
  constructor
  · intro read
    obtain ⟨operation, named, read⟩ := bind_eq_ok_iff.1 read
    obtain ⟨roles, listed, same⟩ := bind_eq_ok_iff.1 read
    cases same
    exact ⟨Operation.name_of_readName named, eq_ofTexts_of_asList listed⟩
  · obtain ⟨name, value⟩ := member
    rintro ⟨rfl, rfl⟩
    rw [Operation.readName_name, Json.asList_ofTexts]
    rfl

private theorem lookup_eq_some_iff_of_grantedBy
    {members : Members} {entries : List (Operation × List String)}
    (pairs : List.Forall₂ GrantedBy members entries) (operation : Operation)
    (roles : List String) :
    entries.lookup operation = some roles ↔
      members.lookup operation.name = some (.ofTexts roles) := by
  induction pairs with
  | nil => simp
  | @cons member entry members entries granted _ hypothesis =>
      obtain ⟨sameName, sameRoles⟩ := granted
      rw [SortedMap.lookup_cons_eq, SortedMap.lookup_cons_eq, sameName, sameRoles]
      by_cases here : operation = entry.1
      · rw [if_pos here, if_pos (congrArg Operation.name here), Option.some.injEq,
          Option.some.injEq]
        exact ⟨congrArg Json.ofTexts, ofTexts_injective⟩
      · have otherName : operation.name ≠ entry.1.name := fun same =>
          here (Operation.name_injective same)
        rw [if_neg here, if_neg otherName]
        exact hypothesis

theorem find?_of_ofJson {value : Json} {access : Access} (read : Access.ofJson value = .ok access) :
    ∃ members, value = .object members ∧
      ∀ operation roles,
        access.find? operation = some roles ↔
          members.reverse.lookup operation.name = some (.ofTexts roles) := by
  cases value with
  | object members =>
      rw [Access.ofJson, map_eq_pure_bind] at read
      obtain ⟨entries, each, same⟩ := bind_eq_ok_iff.1 read
      cases same
      have pairs : List.Forall₂ GrantedBy members entries :=
        (forall₂_of_mapM each).imp fun _ _ => readGrant_eq_ok_iff.1
      refine ⟨members, rfl, fun operation roles => ?_⟩
      rw [SortedMap.find?_ofList]
      exact lookup_eq_some_iff_of_grantedBy (List.forall₂_reverse_iff.2 pairs) operation roles
  | _ => cases read

private theorem find?_grantAll
    {entries : List (Operation × List String)} (apart : (entries.map Prod.fst).Nodup)
    (held : Access) (operation : Operation) :
    (entries.foldl (fun held entry => Access.grant held entry.1 entry.2) held).find? operation =
      ((entries.lookup operation).map ((held.find? operation).getD [] ++ ·)).or
        (held.find? operation) := by
  induction entries generalizing held with
  | nil => rfl
  | cons entry rest hypothesis =>
      rw [List.map_cons, List.nodup_cons] at apart
      rw [List.foldl_cons, hypothesis apart.2, Access.grant, SortedMap.find?_insert,
        SortedMap.lookup_cons_eq]
      by_cases here : operation = entry.1
      · have notLater : rest.lookup operation = none := by
          rw [List.lookup_eq_none_iff]
          intro later listed
          have other : operation ≠ later.1 := by
            intro same
            apply apart.1
            rw [← here, same]
            exact List.mem_map_of_mem listed
          simpa using other
        rw [notLater, if_pos here, if_pos here, ← here]
        rfl
      · simp [here]

/-- A field without access has just the access that it is granted entry by entry. -/
theorem find?_grantEntries (access : Access) (operation : Operation) :
    (access.entries.foldl (fun held entry => Access.grant held entry.1 entry.2) ∅).find?
        operation =
      access.find? operation := by
  rw [find?_grantAll access.nodup_keys, SortedMap.find?_empty, Option.or_none]
  simp [SortedMap.find?]

structure NamesLeafType
    (types : TypeRegistry) (declaration : Members) (name : String) (type : TypeRef) : Prop where
  named : declaration.find? "type" = some (.string name)
  notObject : name ≠ "object"
  registered : types.find? name = some type
  scalar : type.type.isContainer = false

/-- A declaration that names the type of objects and holds the declarations of their fields. -/
structure HoldsFields (declaration fields : Members) : Prop where
  named : declaration.find? "type" = some (.string "object")
  held : declaration.find? "fields" = some (.object fields)

/-- A declaration of an array, and the declaration of the array's items. -/
structure HoldsItems (declaration items : Members) : Prop where
  named : declaration.find? "type" = some (.string "array")
  held : declaration.find? "items" = some (.object items)

section Types

variable {types : TypeRegistry} {items fields : Members} {name : String} {type : TypeRef}

theorem NamesLeafType.not_holdsFields (names : NamesLeafType types declaration name type) :
    ¬HoldsFields declaration fields := by
  intro holds
  have same := names.named.symm.trans holds.named
  cases same
  exact names.notObject rfl

theorem NamesLeafType.not_holdsItems
    (names : NamesLeafType types declaration name type) (notArray : name ≠ "array") :
    ¬HoldsItems declaration items := by
  intro holds
  have same := names.named.symm.trans holds.named
  cases same
  exact notArray rfl

theorem HoldsFields.not_holdsItems (holds : HoldsFields declaration fields) :
    ¬HoldsItems declaration items := by
  intro holdsItems
  have same := Option.some.inj (holds.named.symm.trans holdsItems.named)
  exact absurd (Json.string.inj same) (by decide)

theorem HoldsFields.unique
    {others : Members} (holds : HoldsFields declaration fields)
    (holdsOthers : HoldsFields declaration others) :
    others = fields := by
  have same := holdsOthers.held.symm.trans holds.held
  cases same
  rfl

theorem HoldsItems.unique
    {others : Members} (holds : HoldsItems declaration items)
    (holdsOthers : HoldsItems declaration others) :
    others = items := by
  have same := holdsOthers.held.symm.trans holds.held
  cases same
  rfl

end Types

theorem typeName_eq_ok_iff {name : String} :
    typeName declaration field = .ok name ↔ declaration.find? "type" = some (.string name) := by
  rw [typeName, elim_malformed_eq_ok_iff]
  constructor
  · rintro ⟨found, isText, same⟩
    cases same
    obtain ⟨value, there, text⟩ := Option.bind_eq_some_iff.1 isText
    cases value with
    | string text' =>
        cases text
        exact there
    | _ => cases text
  · intro there
    exact ⟨name, by rw [there]; rfl, rfl⟩

theorem leafType_eq_ok_iff {types : TypeRegistry} {name : String} {type : TypeRef} :
    leafType types name field = .ok type ↔
      types.find? name = some type ∧ type.type.isContainer = false := by
  unfold leafType
  cases types.find? name with
  | none => simp
  | some found =>
      cases container : found.type.isContainer with
      | true =>
          simp only [container, if_true, malformed, Option.some.injEq]
          constructor
          · intro impossible
            cases impossible
          · rintro ⟨rfl, scalar⟩
            rw [container] at scalar
            cases scalar
      | false =>
          simp only [container, Bool.false_eq_true, if_false, Except.ok.injEq, Option.some.injEq]
          constructor
          · rintro rfl
            exact ⟨rfl, container⟩
          · exact And.left

theorem itemsOf_eq_ok_iff {items : Members} :
    itemsOf declaration field = .ok items ↔
      declaration.find? "items" = some (.object items) := by
  unfold itemsOf
  cases declaration.find? "items" with
  | none => simp [malformed]
  | some value => simp [membersOf_eq_ok_iff]

theorem checkFields_eq_ok_iff :
    checkFields declaration field = .ok () ↔
      ∃ fields, declaration.find? "fields" = some (.object fields) := by
  unfold checkFields
  cases declaration.find? "fields" with
  | none => simp [malformed]
  | some value => simp [discard_eq_ok_iff, membersOf_eq_ok_iff]

end Metadata
end Schemata

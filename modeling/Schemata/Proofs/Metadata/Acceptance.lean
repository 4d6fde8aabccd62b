import Schemata.Proofs.Json.Place
import Schemata.Proofs.Metadata.Grammar

/-!
# Which fields are read

Declared fields are read exactly if they follow the grammar. They are read while the tree grows,
and the tree itself objects to nothing but names and constraints. There is always a place for a
field: an object has no two members of one name, and fields are added only beneath objects that had
none before.
-/
namespace Schemata.Metadata

open Attempt (outcome)

variable {types : TypeRegistry} {tree later : FieldTree} {parent id floor : NodeId}
  {name : String} {declaration : Members} {fits needed : Prop} {α β : Type}

/-- A step succeeds on a tree if something fits and fails otherwise, but not for want of a place. -/
structure Judges (step : Building α) (tree : FieldTree) (fits : Prop) : Prop where
  passed : ∀ answer later, outcome step tree = (.ok answer, later) → fits
  refused :
    ∀ error later, outcome step tree = (.error error, later) → ¬IsMisplacement error ∧ ¬fits

theorem Judges.of_ok
    {step : Building α} {answer : α} (success : outcome step tree = (.ok answer, later))
    (holds : fits) :
    Judges step tree fits where
  passed _ _ _ := holds
  refused error last failed := by
    rw [success] at failed
    cases failed

theorem Judges.congr
    {step : Building α} (judges : Judges step tree needed) (same : needed ↔ fits) :
    Judges step tree fits := by
  rwa [← propext same]

/-- Two steps judge together what both of them do. -/
theorem Judges.bind
    {step : Building α} {next : α → Building β} (first : Judges step tree needed)
    (isNeeded : fits → needed)
    (second :
      ∀ answer later, outcome step tree = (.ok answer, later) → needed →
        Judges (next answer) later fits) :
    Judges (step >>= next) tree fits where
  passed answer last success := by
    obtain ⟨value, between, passed, success⟩ := Attempt.outcome_bind_eq_ok_iff.1 success
    have holds := first.passed value between passed
    exact (second value between passed holds).passed answer last success
  refused error last failed := by
    rcases Attempt.outcome_bind_eq_error_iff.1 failed with
      failed | ⟨value, between, passed, failed⟩
    · obtain ⟨inPlace, unfit⟩ := first.refused error last failed
      exact ⟨inPlace, fun holds => unfit (isNeeded holds)⟩
    · have holds := first.passed value between passed
      exact (second value between passed holds).refused error last failed

theorem Judges.read
    {found : Except MetadataError α} {next : α → Building β} (inPlace : ReadsInPlace found)
    (isNeeded : fits → ∃ value, found = .ok value)
    (second : ∀ value, found = .ok value → Judges (next value) tree fits) :
    Judges (Attempt.ofExcept found >>= next) tree fits := by
  have first : Judges (Attempt.ofExcept found) tree (∃ value, found = .ok value) := by
    constructor
    · rintro value _ ⟨⟩
      exact ⟨value, rfl⟩
    · intro error _ failed
      cases failed
      exact ⟨inPlace error rfl, nofun⟩
  refine first.bind isNeeded ?_
  rintro value _ ⟨⟩ _
  exact second value rfl

private theorem judges_constrain (id : NodeId) (constraint : Constraint) (tree : FieldTree) :
    Judges (grow (FieldTree.addConstraint id constraint)) tree (tree.hasLeaf id = true) := by
  have step := outcome_grow (FieldTree.addConstraint id constraint) tree
  rw [FieldTree.outcome_addConstraint] at step
  cases leaf : tree.hasLeaf id with
  | true =>
      rw [leaf, if_pos rfl] at step
      exact .of_ok step rfl
  | false =>
      rw [leaf, if_neg Bool.false_ne_true] at step
      constructor
      · intro answer last success
        rw [step] at success
        cases success
      · intro error last failed
        rw [step] at failed
        cases failed
        exact ⟨nofun, Bool.false_ne_true⟩

private theorem judges_constrainAll (id : NodeId) (constraints : List Constraint)
    (tree : FieldTree) :
    Judges (constraints.forM fun constraint => grow (FieldTree.addConstraint id constraint)) tree
      (constraints = [] ∨ tree.hasLeaf id = true) := by
  induction constraints generalizing tree with
  | nil => exact .of_ok rfl (Or.inl rfl)
  | cons constraint rest hypothesis =>
      refine .bind (judges_constrain id constraint tree)
        (fun applies => applies.resolve_left (List.cons_ne_nil _ _)) ?_
      intro _ later constrained leaf
      rw [outcome_grow_eq_ok_iff, FieldTree.outcome_addConstraint, if_pos leaf] at constrained
      cases constrained
      have stillLeaf : (tree.change id (FieldTree.constrain constraint)).hasLeaf id = true := by
        rw [FieldTree.hasLeaf_change (FieldTree.refines_constrain constraint), leaf]
      exact (hypothesis _).congr ⟨fun _ => Or.inr leaf, fun _ => Or.inr stillLeaf⟩

private theorem judges_addConstraints
    (id : NodeId) (field : Path) (declaration : Members) (tree : FieldTree) :
    Judges (addConstraints id field declaration) tree
      (HoldsOnly declaration "constraints" fun member =>
        Constraint.isWaiver member = true ∨
          tree.hasLeaf id = true ∧ ∃ constraint, Constraint.Writes member constraint) := by
  unfold addConstraints
  split
  · next nothing => exact .of_ok rfl (holdsOnly_of_find?_eq_none nothing)
  · next value written =>
      rw [holdsOnly_iff written]
      refine .read (readsInPlace_constraintsOf field value) ?_ fun constraints read => ?_
      · rintro ⟨members, object, allowed⟩
        refine exists_constraintsOf_iff.2 ⟨members, object, fun member listed => ?_⟩
        exact (allowed member listed).imp_right And.right
      · obtain ⟨members, rfl, each⟩ := exists_constraintsOf_iff.1 ⟨constraints, read⟩
        have applies := judges_constrainAll id constraints tree
        refine applies.congr ⟨fun applies => ⟨members, rfl, fun member listed => ?_⟩, ?_⟩
        · rcases applies with none | leaf
          · exact Or.inl ((constraintsOf_eq_nil_iff read).1 none member listed)
          · exact (each member listed).imp_right fun writes => ⟨leaf, writes⟩
        · rintro ⟨_, ⟨⟩, allowed⟩
          cases leaf : tree.hasLeaf id with
          | true => exact Or.inr rfl
          | false =>
              refine Or.inl ((constraintsOf_eq_nil_iff read).2 fun member listed => ?_)
              refine (allowed member listed).resolve_right fun constrained => ?_
              rw [leaf] at constrained
              exact Bool.false_ne_true constrained.1

private theorem judges_addAccess (id : NodeId) (declaration : Members) (tree : FieldTree) :
    Judges (addAccess id declaration) tree
      (HoldsOnly declaration "access" fun member => ∃ entry, GrantedBy member entry) := by
  unfold addAccess
  split
  · next nothing => exact .of_ok rfl (holdsOnly_of_find?_eq_none nothing)
  · next value written =>
      rw [holdsOnly_iff written, ← exists_access_iff]
      refine .read (readsInPlace_shaped _) ?_ fun access read => ?_
      · rintro ⟨access, read⟩
        exact ⟨access, mapError_eq_ok_iff.2 read⟩
      · exact .of_ok rfl ⟨access, mapError_eq_ok_iff.1 read⟩

/-! ## One field -/

private theorem judges_place
    {grown : FieldTree → FieldTree} {places : FieldTree → α}
    (object : tree.hasObject parent = true) (fresh : tree.child? parent name = none) :
    Judges (grow (FieldTree.addField parent name grown places)) tree (IsFieldName name) where
  passed _ _ success := (outcome_addField_eq_ok_iff.1 success).1.named
  refused error last failed := by
    rw [outcome_grow, FieldTree.outcome_addField] at failed
    cases checked : tree.checkField parent name with
    | ok passed =>
        rw [checked] at failed
        cases failed
    | error fault =>
        rw [checked] at failed
        cases failed
        obtain ⟨unnamed, rfl | rfl⟩ := FieldTree.cases_of_checkField object fresh checked
        · exact ⟨nofun, unnamed⟩
        · exact ⟨nofun, unnamed⟩

private theorem judges_addField
    (object : tree.hasObject parent = true) (fresh : tree.child? parent name = none)
    (field : Path) (declaration : Members) :
    Judges (addField types parent name field declaration) tree
      (IsFieldName name ∧ IsTyped types declaration) := by
  unfold addField
  refine .read (readsInPlace_typeName declaration field) (fun fits => ?_) fun typeName named => ?_
  · obtain ⟨typeName, named⟩ := fits.2.exists_typeName
    exact ⟨typeName, typeName_eq_ok_iff.2 named⟩
  rw [typeName_eq_ok_iff] at named
  split
  · refine .bind (judges_place object fresh) And.left fun _ _ _ isName => ?_
    refine .read (readsInPlace_checkFields _ _) (fun fits => ?_) fun _ checked => ?_
    · exact ⟨(), checkFields_eq_ok_iff.2 (fits.2.holdsFields named)⟩
    · obtain ⟨fields, held⟩ := checkFields_eq_ok_iff.1 checked
      exact .of_ok rfl ⟨isName, .object ⟨named, held⟩⟩
  · refine .read (readsInPlace_itemsOf _ _) (fun fits => ?_) fun items held => ?_
    · obtain ⟨items, held, _⟩ := fits.2.holdsItems named
      exact ⟨items, itemsOf_eq_ok_iff.2 held⟩
    rw [itemsOf_eq_ok_iff] at held
    have isItems (isTyped : IsTyped types declaration) : IsItems types items := by
      obtain ⟨others, heldOthers, isItems⟩ := isTyped.holdsItems named
      cases held.symm.trans heldOthers
      exact isItems
    refine .read (readsInPlace_typeName _ _) (fun fits => ?_) fun itemType itemNamed => ?_
    · obtain ⟨itemType, itemNamed⟩ := (isItems fits.2).exists_typeName
      exact ⟨itemType, typeName_eq_ok_iff.2 itemNamed⟩
    rw [typeName_eq_ok_iff] at itemNamed
    split
    · refine .bind (judges_place object fresh) And.left fun _ _ _ isName => ?_
      refine .read (readsInPlace_checkFields _ _) (fun fits => ?_) fun _ checked => ?_
      · exact ⟨(), checkFields_eq_ok_iff.2 ((isItems fits.2).holdsFields itemNamed)⟩
      · obtain ⟨fields, heldFields⟩ := checkFields_eq_ok_iff.1 checked
        exact .of_ok rfl ⟨isName, .array ⟨named, held⟩ (.objects ⟨itemNamed, heldFields⟩)⟩
    · next notObject =>
        refine .read (readsInPlace_leafType _ _ _)
          (fun fits => (isItems fits.2).exists_leafType itemNamed notObject) fun type typed => ?_
        obtain ⟨registered, scalar⟩ := leafType_eq_ok_iff.1 typed
        refine .bind (judges_place object fresh) And.left fun _ _ _ isName => ?_
        exact .of_ok rfl
          ⟨isName, .array ⟨named, held⟩ (.leaves ⟨itemNamed, notObject, registered, scalar⟩)⟩
  · next notObject notArray =>
      refine .read (readsInPlace_leafType _ _ _)
        (fun fits => fits.2.exists_leafType named notObject notArray) fun type typed => ?_
      obtain ⟨registered, scalar⟩ := leafType_eq_ok_iff.1 typed
      refine .bind (judges_place object fresh) And.left fun _ _ _ isName => ?_
      exact .of_ok rfl
        ⟨isName, .leaf ⟨_, type, ⟨named, notObject, registered, scalar⟩, notArray⟩⟩

private theorem judges_declare
    (before : tree.WellFormed) (object : tree.hasObject parent = true)
    (fresh : tree.child? parent name = none) (value : Json) :
    Judges (declare types parent name value) tree (DeclaresField types (name, value)) := by
  unfold declare
  have looks : Judges (get : Building FieldTree) tree True := .of_ok rfl trivial
  refine looks.bind (fun _ => trivial) fun state _ got _ => ?_
  cases got
  refine .read (readsInPlace_membersOf _ _) (fun fits => ?_) fun declaration isObject => ?_
  · obtain ⟨declaration, isObject, _⟩ := fits.declared
    exact ⟨declaration, membersOf_eq_ok_iff.2 isObject⟩
  rw [membersOf_eq_ok_iff] at isObject
  have declared (fits : DeclaresField types (name, value)) : IsDeclaration types declaration := by
    obtain ⟨other, also, isDeclaration⟩ := fits.declared
    cases isObject.symm.trans also
    exact isDeclaration
  refine .bind (judges_addField object fresh _ declaration)
    (fun fits => ⟨fits.named, (declared fits).typed⟩) fun (id, opened) grown added typed => ?_
  obtain ⟨addable, rfl, adds⟩ := addsField_of_addField added
  obtain ⟨above, node, outlined, _⟩ := adds.outlined addable before
  have leaf_iff : grown.hasLeaf tree.size = true ↔ DeclaresLeaf types declaration := by
    rw [FieldTree.hasLeaf, outlined.found, Option.any_some, outlined.shape.isLeaf_iff]
  have constrains :=
    judges_addConstraints tree.size ((tree.fullPath parent).child name) declaration grown
  rw [leaf_iff] at constrains
  refine constrains.bind (fun fits => (declared fits).constraints) fun _ _ _ constraints => ?_
  refine .bind (judges_addAccess _ _ _) (fun fits => (declared fits).access) fun _ _ _ access => ?_
  exact .of_ok rfl ⟨typed.1, declaration, isObject, typed.2, constraints, access⟩

/-- Behind a new field the object has no more of the other names than before. -/
theorem Outlined.fresh
    {above node : FieldNode} {opened : Option NodeId} {other : String}
    (outlined : Outlined types tree later parent above name declaration opened node)
    (before : tree.WellFormed) (fresh : tree.child? parent other = none)
    (different : name ≠ other) :
    later.child? parent other = none := by
  rw [FieldTree.child?_eq_none_iff] at fresh ⊢
  intro child listed named
  rw [outlined.gains.children_parent, List.mem_append, List.mem_singleton] at listed
  rcases listed with old | rfl
  · obtain ⟨found, foundBefore⟩ :=
      FieldTree.exists_node_of_lt_size (before.lt_size_of_child old)
    obtain ⟨after, foundAfter, kept⟩ := outlined.gains.keeps child found foundBefore
    apply fresh child old
    rw [FieldTree.name?, foundAfter, Option.map_some, kept.name] at named
    rw [FieldTree.name?, foundBefore, Option.map_some, named]
  · rw [FieldTree.name?, outlined.found, Option.map_some, outlined.named] at named
    exact different (Option.some.inj named)

private theorem judges_declareAll
    {members : Members} (before : tree.WellFormed) (object : tree.hasObject parent = true)
    (apart : (members.map Prod.fst).Nodup)
    (fresh : ∀ member ∈ members, tree.child? parent member.1 = none) :
    Judges (members.mapM fun member => declare types parent member.1 member.2) tree
      (∀ member ∈ members, DeclaresField types member) := by
  induction members generalizing tree with
  | nil => exact .of_ok rfl (by simp)
  | cons member rest hypothesis =>
      rw [List.map_cons, List.nodup_cons] at apart
      rw [List.forall_mem_cons] at fresh ⊢
      rw [List.mapM_cons]
      refine .bind (judges_declare before object fresh.1 member.2) And.left
        fun opened later declared first => ?_
      obtain ⟨_, above, node, _, outlined, _⟩ := outlined_of_declare before declared
      have objectLater := outlined.gains.keeps.hasObject object
      have freshLater : ∀ other ∈ rest, later.child? parent other.1 = none := by
        intro other listed
        apply outlined.fresh before (fresh.2 other listed)
        intro same
        exact apart.1 (same ▸ List.mem_map_of_mem listed)
      refine .bind (hypothesis outlined.wellFormed objectLater apart.2 freshLater) And.right
        fun others last _ second => ?_
      exact .of_ok rfl ⟨first, second⟩

/-- Filling an object without fields judges the fields that it is filled with. -/
def FillJudges (types : TypeRegistry) (fields : Members) : Prop :=
  ∀ (tree : FieldTree) (id : NodeId), tree.WellFormed → tree.shape? id = some (.object []) →
    Judges (fill types (.object fields) id) tree (IsFields types (.object fields))

private theorem judges_fillOpened
    {members : Members} {ids : List NodeId} {openeds : List (Option NodeId)}
    (nestedJudges : ∀ nested, NestedIn nested members → FillJudges types nested)
    (wellFormed : tree.WellFormed) (outlines : Outlines types tree floor members ids openeds) :
    Judges (fillOpened types members openeds) tree
      (∀ nested, NestedIn nested members → IsFields types (.object nested)) := by
  induction outlines with
  | nil =>
      simp only [fillOpened]
      refine .of_ok rfl fun nested inside => ?_
      obtain ⟨_, _, ⟨⟩, _⟩ := inside
  | @cons floor next id name declaration opened rest ids others outline outlines hypothesis =>
      have restJudges :=
        hypothesis fun nested inside => nestedJudges nested (nestedIn_cons_iff.2 (Or.inr inside))
      have forRest
          (fits : ∀ nested, NestedIn nested ((name, .object declaration) :: rest) →
            IsFields types (.object nested))
          (nested : Members) (inside : NestedIn nested rest) : IsFields types (.object nested) :=
        fits nested (nestedIn_cons_iff.2 (Or.inr inside))
      cases opened with
      | none =>
          rw [fillOpened]
          refine restJudges.bind forRest fun _ between _ restFits => ?_
          refine .of_ok rfl fun nested inside => ?_
          rcases nestedIn_cons_iff.1 inside with nests | inRest
          · obtain ⟨place, impossible, _⟩ := outline.opens_of_nests nests
            cases impossible
          · exact restFits nested inRest
      | some place =>
          rw [fillOpened]
          refine restJudges.bind forRest fun _ between filledRest restFits => ?_
          have all :=
            filledAll_of_fillOpened (fun nested _ => fills_fill nested) wellFormed outlines
              filledRest
          obtain ⟨object, beforeNext⟩ := outline.empty place rfl
          have empty := all.keeps.shape?_of_children object (all.before place beforeNext)
          obtain ⟨fields, opens⟩ := (outline.opens place).1 rfl
          have inside : NestedIn fields ((name, .object declaration) :: rest) :=
            nestedIn_cons_iff.2 (Or.inl opens.nests)
          have judges := nestedJudges fields inside between place all.wellFormed empty
          rw [← fillFrom_eq opens.nests] at judges
          refine judges.congr ⟨fun isFields nested insideToo => ?_, fun fits => fits fields inside⟩
          rcases nestedIn_cons_iff.1 insideToo with nests | inRest
          · rw [opens.nests.unique nests]
            exact isFields
          · exact restFits nested inRest

theorem NestedIn.namesApart
    {nested fields : Members} (inside : NestedIn nested fields)
    (apart : (Json.object fields).NamesApart) :
    (Json.object nested).NamesApart := by
  obtain ⟨name, declaration, written, nests⟩ := inside
  have declarationApart := apart.member written
  cases nests with
  | object holds => exact declarationApart.member (mem_of_find? holds.held)
  | items holdsItems holds =>
      have itemsApart := declarationApart.member (mem_of_find? holdsItems.held)
      exact itemsApart.member (mem_of_find? holds.held)

private theorem fillJudges_of_namesApart
    (fields : Members) (apart : (Json.object fields).NamesApart) : FillJudges types fields := by
  induction fields using wellFounded_nestedIn.induction with
  | _ fields hypothesis =>
      intro tree id before empty
      have object := FieldTree.hasObject_iff.2 ⟨[], empty⟩
      have fresh : ∀ member ∈ fields, tree.child? id member.1 = none := by
        intro member _
        rw [FieldTree.child?, FieldTree.children_of_object empty]
        rfl
      rw [fill]
      refine .bind (judges_declareAll before object (apart [] fields rfl) fresh) (fun fits => ?_)
        fun openeds between declared each => ?_
      · cases fits with
        | object each _ => exact each
      · obtain ⟨ids, outlines, wellFormed, _⟩ := outlines_of_declareAll before declared
        have nestedJudges (nested : Members) (inside : NestedIn nested fields) :
            FillJudges types nested :=
          hypothesis nested inside (inside.namesApart apart)
        refine (judges_fillOpened nestedJudges wellFormed outlines).congr
          ⟨.object each, fun fits => ?_⟩
        cases fits with
        | object _ nested => exact nested

/-! ## Schemas -/

/-- What is read of an object of fields is the tree that filling the root leaves. -/
theorem fieldTreeOf_object (types : TypeRegistry) (fields : Members) :
    fieldTreeOf types (some (.object fields)) =
      (outcome (fill types (.object fields) FieldTree.root) ∅).1.map fun _ =>
        (outcome (fill types (.object fields) FieldTree.root) ∅).2 :=
  rfl

private theorem fieldTreeOf_of_not_object {value : Json} (notObject : value.object? = none) :
    fieldTreeOf types (some value) = .error (.malformed (.notObject .fields)) := by
  rw [fieldTreeOf, membersOf, notObject]
  rfl

/-- What a document has for its fields is read exactly if there is nothing or an object of fields,
whatever types are registered. No object has two members of one name, as in every value that is read
from a text, and so, if the fields are not read, it is never because a field is there already or
because what is above it is no object. -/
theorem fieldTreeOf_accepts_iff
    {written : Option Json} (apart : ∀ value, written = some value → value.NamesApart) :
    ((∃ tree, fieldTreeOf types written = .ok tree) ↔
        written = none ∨ ∃ value, written = some value ∧ IsFields types value) ∧
      ∀ error, fieldTreeOf types written = .error error →
        ∀ path,
          error ≠ .fieldTree (.duplicateField path) ∧ error ≠ .fieldTree (.notComposite path) := by
  have inPlace {error : MetadataError} (fault : ¬IsMisplacement error) (path : Path) :
      error ≠ .fieldTree (.duplicateField path) ∧ error ≠ .fieldTree (.notComposite path) :=
    ⟨fun same => fault (same ▸ .duplicateField path), fun same => fault (same ▸ .notComposite path)⟩
  cases written with
  | none =>
      refine ⟨⟨fun _ => Or.inl rfl, fun _ => ⟨∅, rfl⟩⟩, ?_⟩
      rintro error ⟨⟩
  | some value =>
      cases object : value.object? with
      | none =>
          rw [fieldTreeOf_of_not_object object]
          refine ⟨⟨?_, ?_⟩, ?_⟩
          · rintro ⟨_, ⟨⟩⟩
          · rintro (⟨⟨⟩⟩ | ⟨_, ⟨⟩, ⟨_, _⟩⟩)
            cases object
          · rintro _ ⟨⟩
            exact inPlace nofun
      | some fields =>
          obtain rfl : value = .object fields := by
            cases value <;> simp_all [Json.object?]
          have judges :
              Judges (fill types (.object fields) FieldTree.root) ∅
                (IsFields types (.object fields)) :=
            fillJudges_of_namesApart fields (apart _ rfl) ∅ FieldTree.root
              FieldTree.wellFormed_empty rfl
          rw [fieldTreeOf_object]
          cases filled : outcome (fill types (.object fields) FieldTree.root) ∅ with
          | mk result grown =>
              cases result with
              | ok done =>
                  have isFields := judges.passed done grown filled
                  refine ⟨⟨fun _ => Or.inr ⟨_, rfl, isFields⟩, fun _ => ⟨grown, rfl⟩⟩, ?_⟩
                  rintro error ⟨⟩
              | error fault =>
                  obtain ⟨placed, unfit⟩ := judges.refused fault grown filled
                  refine ⟨⟨?_, ?_⟩, ?_⟩
                  · rintro ⟨_, ⟨⟩⟩
                  · rintro (⟨⟨⟩⟩ | ⟨_, ⟨⟩, isFields⟩)
                    exact (unfit isFields).elim
                  · rintro _ ⟨⟩
                    exact inPlace placed

def lineDeclaration : Members :=
  [("type", .string "object"),
    ("fields", .object [("amount", .object [("type", .string "integer")])])]

def orderNumber : Members :=
  [("type", .string "string"), ("constraints", .object [("enum", .string "numbers")])]

def orderFields : Members :=
  [("number", .object orderNumber),
    ("lines", .object [("items", .object lineDeclaration), ("type", .string "array")])]

/-- The fields of an order are read, and so they are an object of fields. -/
theorem fields_of_order_are_read :
    (Json.object orderFields).NamesApart ∧
      (∃ tree, fieldTreeOf (.standard 0) (some (.object orderFields)) = .ok tree) ∧
        IsFields (.standard 0) (.object orderFields) := by
  have text (value : String) : (Json.string value).NamesApart := Json.namesApart_scalar rfl
  have amount : (Json.object [("type", .string "integer")]).NamesApart :=
    Json.namesApart_object (by decide) (by simp [text])
  have fields : (Json.object [("amount", .object [("type", .string "integer")])]).NamesApart :=
    Json.namesApart_object (by decide) (by simp [amount])
  have line : (Json.object lineDeclaration).NamesApart :=
    Json.namesApart_object (by decide) (by simp [lineDeclaration, text, fields])
  have lines :
      (Json.object [("items", .object lineDeclaration), ("type", .string "array")]).NamesApart :=
    Json.namesApart_object (by decide) (by simp [text, line])
  have constraints : (Json.object [("enum", .string "numbers")]).NamesApart :=
    Json.namesApart_object (by decide) (by simp [text])
  have number : (Json.object orderNumber).NamesApart :=
    Json.namesApart_object (by decide) (by simp [orderNumber, text, constraints])
  have apart : (Json.object orderFields).NamesApart :=
    Json.namesApart_object (by decide) (by simp [orderFields, number, lines])
  have isOk : (fieldTreeOf (.standard 0) (some (.object orderFields))).isOk = true := by rfl
  obtain ⟨tree, read⟩ := exists_of_isOk isOk
  have ofOrder :
      ∀ value, some (Json.object orderFields) = some value → value.NamesApart := by
    rintro _ ⟨⟩
    exact apart
  rcases (fieldTreeOf_accepts_iff ofOrder).1.1 ⟨tree, read⟩ with impossible | ⟨_, ⟨⟩, isFields⟩
  · cases impossible
  · exact ⟨apart, ⟨tree, read⟩, isFields⟩

end Schemata.Metadata

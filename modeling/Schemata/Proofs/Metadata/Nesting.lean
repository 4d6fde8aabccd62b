import Schemata.Proofs.Metadata.Filling

/-!
# How nested fields are added

An object is filled with all that its declaration nests. When the fields of one nested object are
added, those of the later ones stand already; nothing of them changes, since children stand behind
their parents and so all of them behind the object that is being filled.
-/
namespace Schemata.Metadata

open Attempt (outcome)

variable {types : TypeRegistry} {tree later : FieldTree} {parent floor : NodeId}

/-- A node stands for a declaration, but nothing is nested in it yet. The node and the object that it
opens stand between two places. -/
structure Outline
    (types : TypeRegistry) (tree : FieldTree) (floor next : NodeId) (name : String)
    (declaration : Members) (id : NodeId) (opened : Option NodeId) : Prop where
  start : floor ≤ id
  stop : id < next
  node : ∃ node, tree.node? id = some node ∧ node.name = name ∧
    DeclaresNode types tree declaration node
  opens : ∀ place, opened = some place ↔ ∃ fields, Opens tree declaration id place fields
  empty : ∀ place, opened = some place → tree.shape? place = some (.object []) ∧ place < next

/-- Some nodes stand for the declarations of some fields in order, each before the next one, but
nothing is nested in them yet. -/
inductive Outlines (types : TypeRegistry) (tree : FieldTree) :
    NodeId → Members → List NodeId → List (Option NodeId) → Prop
  | nil {floor : NodeId} : Outlines types tree floor [] [] []
  | cons
      {floor next id : NodeId} {name : String} {declaration : Members} {opened : Option NodeId}
      {rest : Members} {ids : List NodeId} {others : List (Option NodeId)} :
      Outline types tree floor next name declaration id opened →
      Outlines types tree next rest ids others →
      Outlines types tree floor ((name, .object declaration) :: rest) (id :: ids)
        (opened :: others)

theorem Outlines.starts
    {members : Members} {ids : List NodeId} {openeds : List (Option NodeId)}
    (outlines : Outlines types tree floor members ids openeds) :
    ∀ id ∈ ids, floor ≤ id := by
  induction outlines with
  | nil =>
      intro id listed
      cases listed
  | cons outline _ hypothesis =>
      intro other listed
      rcases List.mem_cons.1 listed with same | inRest
      · rw [same]
        exact outline.start
      · have beyond := hypothesis other inRest
        exact Nat.le_trans outline.start (Nat.le_trans (Nat.le_of_lt outline.stop) beyond)

/-- The fields that follow beneath the same object change nothing of a field. -/
theorem Outlined.outline
    {between : FieldTree} {above node : FieldNode} {name : String} {declaration : Members}
    {opened : Option NodeId}
    (outlined : Outlined types tree between parent above name declaration opened node)
    (declares : DeclaresNode types between declaration node)
    (grows : between.GrowsUnder later parent) :
    Outline types later tree.size between.size name declaration tree.size opened := by
  have inside := FieldTree.lt_size_of_node? outlined.found
  have parentBefore := FieldTree.lt_size_of_node? outlined.gains.found
  refine ⟨Nat.le_refl _, inside, ?_, ?_, ?_⟩
  · obtain ⟨after, foundAfter, kept⟩ := grows.keeps _ _ outlined.found
    exact ⟨after, foundAfter, kept.name.trans outlined.named, declares.kept grows.keeps kept⟩
  · intro place
    rw [outlined.opens]
    simp only [opens_iff_of_element? (grows.keeps.element? inside)]
  · intro place isOpened
    have object := outlined.empty place isOpened
    obtain ⟨fields, opens⟩ := (outlined.opens place).1 isOpened
    have placeInside := FieldTree.lt_size_of_shape? object
    have behind := Nat.lt_of_lt_of_le parentBefore (opens.le_opened outlined.wellFormed)
    have same := grows.elsewhere place placeInside (Nat.ne_of_gt behind)
    exact ⟨grows.keeps.shape?_of_children object same, placeInside⟩

theorem outlines_of_declareAll
    {members : Members} {openeds : List (Option NodeId)} (before : tree.WellFormed)
    (success :
      outcome (members.mapM fun member => declare types parent member.1 member.2) tree =
        (.ok openeds, later)) :
    ∃ ids, Outlines types later tree.size members ids openeds ∧ later.WellFormed ∧
      tree.GrowsUnder later parent ∧
        later.children parent = tree.children parent ++ ids := by
  induction members generalizing tree openeds with
  | nil =>
      obtain ⟨rfl, rfl⟩ := Attempt.outcome_pure_eq_ok_iff.1 success
      exact ⟨[], .nil, before, .refl tree parent, (List.append_nil _).symm⟩
  | cons member rest hypothesis =>
      rw [List.mapM_cons] at success
      obtain ⟨opened, between, first, success⟩ := Attempt.outcome_bind_eq_ok_iff.1 success
      obtain ⟨others, final, second, success⟩ := Attempt.outcome_bind_eq_ok_iff.1 success
      obtain ⟨rfl, rfl⟩ := Attempt.outcome_pure_eq_ok_iff.1 success
      obtain ⟨declaration, above, node, isObject, outlined, declares⟩ :=
        outlined_of_declare before first
      obtain ⟨ids, outlines, wellFormed, grows, gained⟩ := hypothesis outlined.wellFormed second
      obtain ⟨name, value⟩ := member
      cases isObject
      refine ⟨tree.size :: ids, .cons (outlined.outline declares grows) outlines, wellFormed,
        outlined.gains.growsUnder.trans grows, ?_⟩
      rw [gained, outlined.gains.children_parent, List.append_assoc, List.singleton_append]

/-- An object was filled with the fields that are declared for it, and with all that is nested in
them. -/
structure Filled
    (types : TypeRegistry) (tree later : FieldTree) (fields : Members) (id : NodeId) : Prop where
  wellFormed : later.WellFormed
  grows : tree.GrowsUnder later id
  declares : Declares types later fields (later.children id)

/-- A step that fills every object without fields that it succeeds on. -/
def Fills (types : TypeRegistry) (step : NodeId → Building Unit) (fields : Members) : Prop :=
  ∀ (tree later : FieldTree) (id : NodeId), tree.WellFormed →
    tree.shape? id = some (.object []) → outcome (step id) tree = (.ok (), later) →
      Filled types tree later fields id

/-- A declaration holds nested fields, or its items do. -/
inductive Nests (declaration fields : Members) : Prop
  | object : HoldsFields declaration fields → Nests declaration fields
  | items {items : Members} :
      HoldsItems declaration items → HoldsFields items fields → Nests declaration fields

theorem Opens.nests
    {declaration fields : Members} {id opened : NodeId}
    (opens : Opens tree declaration id opened fields) :
    Nests declaration fields := by
  cases opens with
  | object holds => exact .object holds
  | items holdsItems holds _ => exact .items holdsItems holds

theorem Nests.unique
    {declaration fields others : Members} (nests : Nests declaration fields)
    (nestsOthers : Nests declaration others) :
    others = fields := by
  cases nests with
  | object holds =>
      cases nestsOthers with
      | object holdsOthers => exact holds.unique holdsOthers
      | items holdsItems _ => exact (holds.not_holdsItems holdsItems).elim
  | items holdsItems holds =>
      cases nestsOthers with
      | object holdsOthers => exact (holdsOthers.not_holdsItems holdsItems).elim
      | items holdsItemsToo holdsOthers =>
          rw [holdsItems.unique holdsItemsToo] at holdsOthers
          exact holds.unique holdsOthers

/-- A declaration that nests fields has opened an object for them. -/
theorem Outline.opens_of_nests
    {next id : NodeId} {name : String} {opened : Option NodeId} {declaration fields : Members}
    (outline : Outline types tree floor next name declaration id opened)
    (nests : Nests declaration fields) :
    ∃ place, opened = some place ∧ Opens tree declaration id place fields := by
  cases nests with
  | object holds =>
      have opens : Opens tree declaration id id fields := .object holds
      exact ⟨id, (outline.opens id).2 ⟨fields, opens⟩, opens⟩
  | items holdsItems holds =>
      obtain ⟨node, found, _, declares⟩ := outline.node
      obtain ⟨element, array⟩ := declares.shape.array_of_holdsItems holdsItems
      have named : tree.element? id = some element := by
        rw [FieldTree.element?_eq_some_iff, FieldTree.shape?, found, Option.map_some, array]
      have opens : Opens tree declaration id element fields := .items holdsItems holds named
      exact ⟨element, (outline.opens element).2 ⟨fields, opens⟩, opens⟩

/-- All objects that some declarations opened were filled. -/
structure FilledAll
    (types : TypeRegistry) (tree later : FieldTree) (floor : NodeId) (members : Members)
    (ids : List NodeId) : Prop where
  wellFormed : later.WellFormed
  keeps : tree.Keeps later
  before : ∀ id, id < floor → later.children id = tree.children id
  declares : Declares types later members ids

section Cons

variable {between : FieldTree} {next id place : NodeId} {name : String} {declaration : Members}
  {rest : Members} {ids : List NodeId}

theorem FilledAll.cons_none
    (others : FilledAll types tree later next rest ids)
    (outline : Outline types tree floor next name declaration id none) :
    FilledAll types tree later floor ((name, .object declaration) :: rest) (id :: ids) := by
  obtain ⟨node, found, named, declares⟩ := outline.node
  obtain ⟨after, foundAfter, kept⟩ := others.keeps id node found
  have inside := FieldTree.lt_size_of_node? found
  refine ⟨others.wellFormed, others.keeps, ?_, ?_⟩
  · intro earlier isEarlier
    have beforeNext := Nat.lt_of_lt_of_le isEarlier outline.start
    exact others.before earlier (Nat.lt_trans beforeNext outline.stop)
  · refine .cons foundAfter (kept.name.trans named) (declares.kept others.keeps kept) ?_
      others.declares
    intro opened fields opens
    rw [opens_iff_of_element? (others.keeps.element? inside)] at opens
    have impossible := (outline.opens opened).2 ⟨fields, opens⟩
    cases impossible

theorem FilledAll.cons_some
    (others : FilledAll types tree between next rest ids)
    (outline : Outline types tree floor next name declaration id (some place))
    (beyond : ∀ other ∈ ids, next ≤ other) (wellFormed : tree.WellFormed)
    (filled : ∀ fields, Opens tree declaration id place fields →
      Filled types between later fields place) :
    FilledAll types tree later floor ((name, .object declaration) :: rest) (id :: ids) := by
  obtain ⟨node, found, named, declares⟩ := outline.node
  obtain ⟨fields, opensHere⟩ := (outline.opens place).1 rfl
  obtain ⟨object, beforeNext⟩ := outline.empty place rfl
  have fromHere := opensHere.le_opened wellFormed
  have ⟨wellFormedLater, grows, _⟩ := filled fields opensHere
  have keeps := others.keeps.trans grows.keeps
  obtain ⟨after, foundAfter, kept⟩ := keeps id node found
  have inside := FieldTree.lt_size_of_node? found
  refine ⟨wellFormedLater, keeps, ?_, ?_⟩
  · intro earlier isEarlier
    have beforeId := Nat.lt_of_lt_of_le isEarlier outline.start
    have beforePlace := Nat.lt_of_lt_of_le beforeId fromHere
    have insideBetween :=
      Nat.lt_of_lt_of_le (Nat.lt_trans beforeId inside) others.keeps.size_le
    rw [grows.elsewhere earlier insideBetween (Nat.ne_of_lt beforePlace)]
    exact others.before earlier (Nat.lt_trans beforeId outline.stop)
  · refine .cons foundAfter (kept.name.trans named) (declares.kept keeps kept) ?_ ?_
    · intro opened nested opens
      rw [opens_iff_of_element? (keeps.element? inside)] at opens
      have same := (outline.opens opened).2 ⟨nested, opens⟩
      cases same
      exact (filled nested opens).declares
    · apply others.declares.keeps others.wellFormed grows.keeps ?_ beyond
      intro other behind insideBetween
      have afterPlace := Nat.lt_of_lt_of_le beforeNext behind
      exact grows.elsewhere other insideBetween (Nat.ne_of_gt afterPlace)

end Cons

/-- Filling an object from a declaration is filling it with what is nested there. -/
theorem fillFields_eq
    {declaration : Members} {value : Json} (held : declaration.find? "fields" = some value)
    (id : NodeId) :
    fillFields types declaration id = fill types value id := by
  induction declaration with
  | nil => cases held
  | cons member rest hypothesis =>
      obtain ⟨name, written⟩ := member
      rw [fillFields]
      rw [Members.find?, SortedMap.lookup_cons_eq] at held
      by_cases here : name = "fields"
      · rw [if_pos here.symm] at held
        cases held
        rw [if_pos here]
      · rw [if_neg (Ne.symm here)] at held
        rw [if_neg here]
        exact hypothesis held

private theorem fillItems_eq
    {declaration items : Members} (held : declaration.find? "items" = some (.object items))
    (id : NodeId) :
    fillItems types declaration id = fillFields types items id := by
  induction declaration with
  | nil => cases held
  | cons member rest hypothesis =>
      obtain ⟨name, written⟩ := member
      rw [Members.find?, SortedMap.lookup_cons_eq] at held
      by_cases here : name = "items"
      · rw [if_pos here.symm] at held
        cases held
        rw [fillItems, if_pos here]
      · rw [if_neg (Ne.symm here)] at held
        cases written with
        | object members =>
            rw [fillItems, if_neg here]
            exact hypothesis held
        | _ =>
            rw [fillItems]
            · exact hypothesis held
            · simp

theorem fillFrom_eq
    {declaration fields : Members} (nests : Nests declaration fields) (id : NodeId) :
    fillFrom types (.object declaration) id = fill types (.object fields) id := by
  rw [fillFrom]
  cases nests with
  | object holds =>
      have notArray : isArrayDeclaration declaration = false := by
        rw [isArrayDeclaration, holds.named]
        rfl
      rw [notArray, if_neg Bool.false_ne_true, fillFields_eq holds.held]
  | items holdsItems holds =>
      have isArray : isArrayDeclaration declaration = true := by
        rw [isArrayDeclaration, holdsItems.named]
        rfl
      rw [isArray, if_pos rfl, fillItems_eq holdsItems.held, fillFields_eq holds.held]

theorem mem_of_find?
    {members : Members} {name : String} {value : Json} (held : members.find? name = some value) :
    (name, value) ∈ members := by
  obtain ⟨front, back, rfl, _⟩ := List.lookup_eq_some_iff.1 held
  exact List.mem_append_right front List.mem_cons_self

private theorem sizeOf_lt_of_mem
    {members : Members} {name : String} {value : Json} (listed : (name, value) ∈ members) :
    sizeOf value < sizeOf members := by
  have smaller := List.sizeOf_lt_of_mem listed
  simp only [Prod.mk.sizeOf_spec] at smaller
  omega

/-- Fields that are nested in the declaration of one of some fields. -/
def NestedIn (nested fields : Members) : Prop :=
  ∃ name declaration, (name, Json.object declaration) ∈ fields ∧ Nests declaration nested

theorem NestedIn.sizeOf_lt {nested fields : Members} (inside : NestedIn nested fields) :
    sizeOf nested < sizeOf fields := by
  obtain ⟨name, declaration, written, nests⟩ := inside
  have smaller := sizeOf_lt_of_mem written
  simp only [Json.object.sizeOf_spec] at smaller
  cases nests with
  | object holds =>
      have held := sizeOf_lt_of_mem (mem_of_find? holds.held)
      simp only [Json.object.sizeOf_spec] at held
      omega
  | items holdsItems holds =>
      have heldItems := sizeOf_lt_of_mem (mem_of_find? holdsItems.held)
      have held := sizeOf_lt_of_mem (mem_of_find? holds.held)
      simp only [Json.object.sizeOf_spec] at heldItems held
      omega

/-- Nesting ends somewhere. -/
theorem wellFounded_nestedIn : WellFounded NestedIn :=
  Subrelation.wf NestedIn.sizeOf_lt (measure sizeOf).wf

theorem nestedIn_cons_iff {name : String} {declaration nested rest : Members} :
    NestedIn nested ((name, .object declaration) :: rest) ↔
      Nests declaration nested ∨ NestedIn nested rest := by
  constructor
  · rintro ⟨other, others, written, nests⟩
    rcases List.mem_cons.1 written with here | later
    · cases here
      exact Or.inl nests
    · exact Or.inr ⟨other, others, later, nests⟩
  · rintro (nests | ⟨other, others, written, nests⟩)
    · exact ⟨name, declaration, List.mem_cons_self, nests⟩
    · exact ⟨other, others, List.mem_cons_of_mem _ written, nests⟩

theorem filledAll_of_fillOpened
    {members : Members} {ids : List NodeId} {openeds : List (Option NodeId)}
    (nestedFills :
      ∀ nested, NestedIn nested members → Fills types (fill types (.object nested)) nested)
    (wellFormed : tree.WellFormed) (outlines : Outlines types tree floor members ids openeds)
    (success : outcome (fillOpened types members openeds) tree = (.ok (), later)) :
    FilledAll types tree later floor members ids := by
  induction outlines generalizing later with
  | nil =>
      simp only [fillOpened] at success
      obtain ⟨_, rfl⟩ := Attempt.outcome_pure_eq_ok_iff.1 success
      exact ⟨wellFormed, .refl tree, fun _ _ => rfl, .nil⟩
  | @cons _ next id name declaration opened rest ids others outline outlines hypothesis =>
      have restFills :
          ∀ nested, NestedIn nested rest → Fills types (fill types (.object nested)) nested :=
        fun nested inside => nestedFills nested (nestedIn_cons_iff.2 (Or.inr inside))
      cases opened with
      | none =>
          rw [fillOpened] at success
          obtain ⟨_, between, filledRest, success⟩ := Attempt.outcome_bind_eq_ok_iff.1 success
          obtain ⟨_, rfl⟩ := Attempt.outcome_pure_eq_ok_iff.1 success
          exact (hypothesis restFills filledRest).cons_none outline
      | some place =>
          rw [fillOpened] at success
          obtain ⟨_, between, filledRest, success⟩ := Attempt.outcome_bind_eq_ok_iff.1 success
          have all := hypothesis restFills filledRest
          apply all.cons_some outline outlines.starts wellFormed
          intro fields opens
          obtain ⟨object, beforeNext⟩ := outline.empty place rfl
          have empty := all.keeps.shape?_of_children object (all.before place beforeNext)
          have inside : NestedIn fields ((name, .object declaration) :: rest) :=
            nestedIn_cons_iff.2 (Or.inl opens.nests)
          have filled : outcome (fill types (.object fields) place) between = (.ok (), later) := by
            rw [← fillFrom_eq opens.nests]
            exact success
          exact nestedFills fields inside between later place all.wellFormed empty filled

theorem fills_fill (fields : Members) : Fills types (fill types (.object fields)) fields := by
  induction fields using wellFounded_nestedIn.induction with
  | _ fields hypothesis =>
      intro tree later id before empty success
      rw [fill] at success
      obtain ⟨openeds, between, declared, success⟩ := Attempt.outcome_bind_eq_ok_iff.1 success
      obtain ⟨ids, outlines, wellFormed, grows, gained⟩ := outlines_of_declareAll before declared
      have all := filledAll_of_fillOpened hypothesis wellFormed outlines success
      have inside := FieldTree.lt_size_of_shape? empty
      refine ⟨all.wellFormed, ⟨grows.keeps.trans all.keeps, ?_⟩, ?_⟩
      · intro other otherInside notHere
        rw [all.before other otherInside, grows.elsewhere other otherInside notHere]
      · rw [all.before id inside, gained, FieldTree.children_of_object empty, List.nil_append]
        exact all.declares

end Schemata.Metadata

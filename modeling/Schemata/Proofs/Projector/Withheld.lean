import Schemata.Proofs.Projector.LastExclusion

/-!
# Withheld values

Two documents that differ only in what is withheld have the same projection. Withheld are a value
that is excluded and the value of a member that the field tree does not know, whatever they are, and
a scalar about which nothing is said where something else is included.
-/
namespace Schemata.Projector

open Json (Step Place)

section Walk

variable {projector : Projector} {tree : FieldTree}

theorem showValue_of_excluded
    {place : Place} (excluded : projector.decisionAt place = .excluded) (value : Json) :
    showValue tree value (projector.scopeAt place) (Place.path place) = none := by
  rw [decisionAt] at excluded
  cases value <;> simp [showValue, excluded]

private theorem showValue_of_unmentioned_scalar
    {place : Place} {value : Json} (scalar : value.isScalar = true)
    (undecided : projector.decisionAt place = .undecided)
    (inclusion : (projector.scopeAt place).hasInclusion = true) :
    showValue tree value (projector.scopeAt place) (Place.path place) = none := by
  rw [decisionAt] at undecided
  rw [showValue_scalar scalar, undecided]
  exact if_pos inclusion

/-- Of two objects at a place the same is shown if the same is shown of their members. It matters
besides whether they are empty, but only where nothing is decided and nothing is included. -/
theorem showValue_object_congr
    {place : Place} (notTop : place ≠ []) {left right : Members}
    (sameShown :
      showMembers tree left (projector.scopeBeneath place) (Place.path place) =
        showMembers tree right (projector.scopeBeneath place) (Place.path place))
    (sameEmpty :
      projector.decisionAt place = .undecided →
        (projector.scopeAt place).hasInclusion = false → left.isEmpty = right.isEmpty) :
    showValue tree (.object left) (projector.scopeAt place) (Place.path place) =
      showValue tree (.object right) (projector.scopeAt place) (Place.path place) := by
  have beneath := scopeBeneath_eq_handOn projector notTop
  rw [beneath, handOn] at sameShown
  rw [showValue, showValue]
  simp only [sameShown]
  cases decided : ((projector.scopeAt place).project (Place.path place)).decision with
  | excluded => rfl
  | included => rfl
  | undecided =>
      have sameScope : projector.scopeBeneath place = projector.scopeAt place := by
        rw [beneath]
        exact handOn_eq_self (by simp [decided])
      rw [beneath, handOn] at sameScope
      cases inclusion : (projector.scopeAt place).hasInclusion with
      | true => simp [sameScope, inclusion]
      | false => simp [sameEmpty decided inclusion]

theorem showValue_array_congr
    {place : Place} (notTop : place ≠ []) {left right : List Json}
    (sameShown :
      showItems tree left 0 (projector.scopeBeneath place) (Place.path place) =
        showItems tree right 0 (projector.scopeBeneath place) (Place.path place))
    (sameEmpty : left.isEmpty = right.isEmpty) :
    showValue tree (.array left) (projector.scopeAt place) (Place.path place) =
      showValue tree (.array right) (projector.scopeAt place) (Place.path place) := by
  rw [scopeBeneath_eq_handOn projector notTop, handOn] at sameShown
  rw [showValue, showValue]
  simp only [sameShown, sameEmpty]

theorem showMembers_cons_of_unknown
    {place : Place} {name : String}
    (unknown : tree.resolve? (Place.path (place ++ [.member name])) = none)
    (value : Json) (rest : Members) :
    showMembers tree ((name, value) :: rest) (projector.scopeBeneath place) (Place.path place) =
      showMembers tree rest (projector.scopeBeneath place) (Place.path place) := by
  rw [Place.path_concat, Step.segment] at unknown
  rw [showMembers, unknown]
  rfl

theorem showMembers_cons_congr
    {place : Place} {name : String} {left right : Json} {others more : Members}
    (sameFirst :
      showValue tree left (projector.scopeAt (place ++ [.member name]))
          (Place.path (place ++ [.member name])) =
        showValue tree right (projector.scopeAt (place ++ [.member name]))
          (Place.path (place ++ [.member name])))
    (sameRest :
      showMembers tree others (projector.scopeBeneath place) (Place.path place) =
        showMembers tree more (projector.scopeBeneath place) (Place.path place)) :
    showMembers tree ((name, left) :: others) (projector.scopeBeneath place) (Place.path place) =
      showMembers tree ((name, right) :: more) (projector.scopeBeneath place)
        (Place.path place) := by
  rw [scopeAt_concat, Place.path_concat, Step.segment] at sameFirst
  rw [showMembers, showMembers, sameFirst, sameRest]

theorem showItems_cons_congr
    {place : Place} {index : Nat} {left right : Json} {others more : List Json}
    (sameFirst :
      showValue tree left (projector.scopeAt (place ++ [.item index]))
          (Place.path (place ++ [.item index])) =
        showValue tree right (projector.scopeAt (place ++ [.item index]))
          (Place.path (place ++ [.item index])))
    (sameRest :
      showItems tree others (index + 1) (projector.scopeBeneath place) (Place.path place) =
        showItems tree more (index + 1) (projector.scopeBeneath place) (Place.path place)) :
    showItems tree (left :: others) index (projector.scopeBeneath place) (Place.path place) =
      showItems tree (right :: more) index (projector.scopeBeneath place) (Place.path place) := by
  rw [scopeAt_concat, Place.path_concat, Step.segment] at sameFirst
  rw [showItems, showItems, sameFirst, sameRest]

end Walk

section Differences

variable (projector : Projector) (tree : FieldTree)

mutual

/-- Two values at a place differ only in what is withheld. -/
inductive DifferWithheld : Place → Json → Json → Prop
  | same {place : Place} (value : Json) :
      DifferWithheld place value value
  | excluded {place : Place} (left right : Json) :
      projector.decisionAt place = .excluded →
      DifferWithheld place left right
  | unmentioned {place : Place} {left right : Json} :
      left.isScalar = true →
      right.isScalar = true →
      projector.decisionAt place = .undecided →
      (projector.scopeAt place).hasInclusion = true →
      DifferWithheld place left right
  | object {place : Place} {left right : Members} :
      MembersDifferWithheld place left right →
      DifferWithheld place (.object left) (.object right)
  | array {place : Place} {left right : List Json} :
      ItemsDifferWithheld place 0 left right →
      DifferWithheld place (.array left) (.array right)

/-- The members of two objects at a place have the same names in the same order and differ only in
what is withheld. -/
inductive MembersDifferWithheld : Place → Members → Members → Prop
  | nil {place : Place} :
      MembersDifferWithheld place [] []
  | unknown {place : Place} {name : String} (left right : Json) {others more : Members} :
      tree.resolve? (Place.path (place ++ [.member name])) = none →
      MembersDifferWithheld place others more →
      MembersDifferWithheld place ((name, left) :: others) ((name, right) :: more)
  | member {place : Place} {name : String} {left right : Json} {others more : Members} :
      DifferWithheld (place ++ [.member name]) left right →
      MembersDifferWithheld place others more →
      MembersDifferWithheld place ((name, left) :: others) ((name, right) :: more)

/-- As many items of two arrays at a place, the first of which have a given index, differ only in
what is withheld. -/
inductive ItemsDifferWithheld : Place → Nat → List Json → List Json → Prop
  | nil {place : Place} {index : Nat} :
      ItemsDifferWithheld place index [] []
  | item {place : Place} {index : Nat} {left right : Json} {others more : List Json} :
      DifferWithheld (place ++ [.item index]) left right →
      ItemsDifferWithheld place (index + 1) others more →
      ItemsDifferWithheld place index (left :: others) (right :: more)

end

variable {projector tree}

theorem MembersDifferWithheld.isEmpty_eq
    {place : Place} {left right : Members}
    (differ : MembersDifferWithheld projector tree place left right) :
    left.isEmpty = right.isEmpty := by
  cases differ <;> rfl

theorem ItemsDifferWithheld.isEmpty_eq
    {place : Place} {index : Nat} {left right : List Json}
    (differ : ItemsDifferWithheld projector tree place index left right) :
    left.isEmpty = right.isEmpty := by
  cases differ <;> rfl

mutual

/-- Of two values that differ only in what is withheld the walk shows the same. -/
theorem DifferWithheld.showValue_eq :
    ∀ {place : Place} {left right : Json},
      DifferWithheld projector tree place left right → place ≠ [] →
      showValue tree left (projector.scopeAt place) (Place.path place) =
        showValue tree right (projector.scopeAt place) (Place.path place)
  | _, _, _, .same _, _ => rfl
  | _, _, _, .excluded left right excluded, _ => by
      rw [showValue_of_excluded excluded, showValue_of_excluded excluded]
  | _, _, _, .unmentioned scalar other undecided inclusion, _ => by
      rw [showValue_of_unmentioned_scalar scalar undecided inclusion,
        showValue_of_unmentioned_scalar other undecided inclusion]
  | _, _, _, .object members, notTop => by
      have sameShown := members.showMembers_eq
      exact showValue_object_congr notTop sameShown fun _ _ => members.isEmpty_eq
  | _, _, _, .array items, notTop => by
      have sameShown := items.showItems_eq
      exact showValue_array_congr notTop sameShown items.isEmpty_eq

theorem MembersDifferWithheld.showMembers_eq :
    ∀ {place : Place} {left right : Members},
      MembersDifferWithheld projector tree place left right →
      showMembers tree left (projector.scopeBeneath place) (Place.path place) =
        showMembers tree right (projector.scopeBeneath place) (Place.path place)
  | _, _, _, .nil => rfl
  | _, _, _, .unknown left right unknown others => by
      have sameRest := others.showMembers_eq
      rw [showMembers_cons_of_unknown unknown, showMembers_cons_of_unknown unknown, sameRest]
  | _, _, _, .member first others => by
      have sameFirst := first.showValue_eq (by simp)
      have sameRest := others.showMembers_eq
      exact showMembers_cons_congr sameFirst sameRest

theorem ItemsDifferWithheld.showItems_eq :
    ∀ {place : Place} {index : Nat} {left right : List Json},
      ItemsDifferWithheld projector tree place index left right →
      showItems tree left index (projector.scopeBeneath place) (Place.path place) =
        showItems tree right index (projector.scopeBeneath place) (Place.path place)
  | _, _, _, _, .nil => rfl
  | _, _, _, _, .item first others => by
      have sameFirst := first.showValue_eq (by simp)
      have sameRest := others.showItems_eq
      exact showItems_cons_congr sameFirst sameRest

end

/-- If the members of two documents differ only in what is withheld, then the projection of the one
is the projection of the other: its shown places. -/
theorem projectDocument_eq_of_differWithheld
    {left right : Members} (differ : MembersDifferWithheld projector tree [] left right) :
    projectDocument projector tree (.object left) =
        .ok (Json.keep (projector.Shown tree) (.object left) []) ∧
      projectDocument projector tree (.object right) =
        projectDocument projector tree (.object left) := by
  have sameShown := differ.showMembers_eq
  rw [scopeBeneath_nil, Place.path_nil] at sameShown
  refine ⟨projectDocument_eq_keep projector tree left, ?_⟩
  rw [projectDocument, projectDocument, sameShown]

end Differences

/-- A document with a first line and a note on it, a second line, and something that is no line. -/
def orderWith (note number loose : Json) : Members :=
  [("lines", .array [
    .object [("sku", .string "A"), ("note", note)],
    .object [("sku", number)],
    loose])]

/-- The note is unknown to the tree, the number of the second line is excluded, and about what is no
line nothing is said while the first line is included. -/
theorem only_first_line_shows :
    MembersDifferWithheld firstLineProjector linesTree []
        (orderWith (.string "urgent") (.string "B") .null)
        (orderWith (.array [.null]) (.object [("sku", .null)]) (.bool true)) ∧
      projectDocument firstLineProjector linesTree
          (.object (orderWith (.array [.null]) (.object [("sku", .null)]) (.bool true))) =
        projectDocument firstLineProjector linesTree
          (.object (orderWith (.string "urgent") (.string "B") .null)) := by
  have note :
      MembersDifferWithheld firstLineProjector linesTree [.member "lines", .item 0]
        [("sku", .string "A"), ("note", .string "urgent")]
        [("sku", .string "A"), ("note", .array [.null])] :=
    .member (.same _) (.unknown _ _ (by rfl) .nil)
  have number :
      MembersDifferWithheld firstLineProjector linesTree [.member "lines", .item 1]
        [("sku", .string "B")] [("sku", .object [("sku", .null)])] :=
    .member (.excluded _ _ (by decide)) .nil
  have loose :
      DifferWithheld firstLineProjector linesTree [.member "lines", .item 2] .null (.bool true) :=
    .unmentioned rfl rfl (by decide) (by decide)
  refine ⟨?differ, (projectDocument_eq_of_differWithheld ?differ).2⟩
  exact .member (.array (.item (.object note) (.item (.object number) (.item loose .nil)))) .nil

end Schemata.Projector

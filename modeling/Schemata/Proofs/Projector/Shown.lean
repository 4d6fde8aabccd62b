import Schemata.Proofs.Projector.Scope

/-!
# What is shown of a document

The places of a document that a projector shows, told one by one: from the decisions on the way
down to a place, and from what is beneath it. What is left of the document when only these places
are kept in it is the projected document.
-/
namespace Schemata.Projector

open Json (Step Place)

variable (projector : Projector) (tree : FieldTree)

/-- Nothing at a place itself stands against showing it: a member of an object is known to the
tree, and the place is not excluded. -/
structure Unbarred (place : Place) : Prop where
  known :
    ∀ above name, place = above ++ [.member name] →
      (tree.resolve? (Place.path place)).isSome = true
  notExcluded : projector.decisionAt place ≠ .excluded

/-- Nothing on the way to a place, the place included, stands against showing it. -/
def Admitted (place : Place) : Prop :=
  ∀ upTo, upTo <+: place → upTo ≠ [] → projector.Unbarred tree upTo

theorem admitted_nil : projector.Admitted tree [] := by
  intro upTo reached notTop
  exact (notTop (List.prefix_nil.1 reached)).elim

theorem admitted_concat_iff (place : Place) (step : Step) :
    projector.Admitted tree (place ++ [step]) ↔
      projector.Admitted tree place ∧ projector.Unbarred tree (place ++ [step]) := by
  constructor
  · intro admitted
    refine ⟨fun upTo reached notTop => ?_, ?_⟩
    · exact admitted upTo (reached.trans (List.prefix_append place [step])) notTop
    · exact admitted _ List.prefix_rfl (by simp)
  · rintro ⟨above, here⟩ upTo reached notTop
    rcases List.prefix_concat_iff.1 reached with rfl | earlier
    · exact here
    · exact above upTo earlier notTop

private theorem unbarred_member_iff (place : Place) (name : String) :
    projector.Unbarred tree (place ++ [.member name]) ↔
      (tree.resolve? ((Place.path place).child name)).isSome = true ∧
        projector.decisionAt (place ++ [.member name]) ≠ .excluded := by
  constructor
  · rintro ⟨known, notExcluded⟩
    have resolved := known place name rfl
    rw [Place.path_concat] at resolved
    exact ⟨resolved, notExcluded⟩
  · rintro ⟨resolved, notExcluded⟩
    refine ⟨fun _ _ _ => ?_, notExcluded⟩
    rw [Place.path_concat]
    exact resolved

private theorem unbarred_item_iff (place : Place) (index : Nat) :
    projector.Unbarred tree (place ++ [.item index]) ↔
      projector.decisionAt (place ++ [.item index]) ≠ .excluded := by
  constructor
  · exact Unbarred.notExcluded
  · intro notExcluded
    refine ⟨fun above name same => ?_, notExcluded⟩
    have sameStep := (List.append_inj' same rfl).2
    cases sameStep

/-- A place with its value is shown if nothing on the way stands against it and it is included,
or it has no parts and is left to a scope that includes nothing, or a part of it is shown. -/
inductive Shown : Place → Json → Prop
  | included {place : Place} {value : Json} :
      projector.Admitted tree place →
      projector.decisionAt place = .included →
      Shown place value
  | unmentioned {place : Place} {value : Json} :
      projector.Admitted tree place →
      value.isBare = true →
      projector.decisionAt place = .undecided →
      (projector.scopeAt place).hasInclusion = false →
      Shown place value
  | around {place : Place} {value : Json} {step : Step} {part : Json} :
      projector.Admitted tree place →
      value.HasPart step part →
      Shown (place ++ [step]) part →
      Shown place value

variable {projector tree}

theorem Shown.admitted
    {place : Place} {value : Json} (shown : projector.Shown tree place value) :
    projector.Admitted tree place := by
  cases shown <;> assumption

theorem Shown.unbarred
    {place : Place} {step : Step} {value : Json}
    (shown : projector.Shown tree (place ++ [step]) value) :
    projector.Unbarred tree (place ++ [step]) :=
  shown.admitted _ List.prefix_rfl (by simp)

theorem shown_iff {place : Place} {value : Json} :
    projector.Shown tree place value ↔
      projector.Admitted tree place ∧
        (projector.decisionAt place = .included ∨
          (∃ step part,
            value.HasPart step part ∧ projector.Shown tree (place ++ [step]) part) ∨
          (value.isBare = true ∧ projector.decisionAt place = .undecided ∧
            (projector.scopeAt place).hasInclusion = false)) := by
  constructor
  · intro shown
    refine ⟨shown.admitted, ?_⟩
    cases shown with
    | included _ included => exact Or.inl included
    | unmentioned _ bare undecided noInclusion =>
        exact Or.inr (Or.inr ⟨bare, undecided, noInclusion⟩)
    | around _ found shownPart => exact Or.inr (Or.inl ⟨_, _, found, shownPart⟩)
  · rintro ⟨admitted, included | ⟨step, part, found, shownPart⟩ |
      ⟨bare, undecided, noInclusion⟩⟩
    · exact .included admitted included
    · exact .around admitted found shownPart
    · exact .unmentioned admitted bare undecided noInclusion

section Walk

open Classical

/-- The answer of the walk about a value, once it is known whether a part of it is shown. -/
theorem answer_eq
    {place : Place} {step : Step} {value : Json}
    (admitted :
      projector.decisionAt (place ++ [step]) ≠ .excluded →
        projector.Admitted tree (place ++ [step]))
    {partsShown : Bool}
    (partsShown_iff :
      partsShown = true ↔
        ∃ next part,
          value.HasPart next part ∧ projector.Shown tree (place ++ [step] ++ [next]) part)
    (left : Json) :
    (match projector.decisionAt (place ++ [step]) with
      | .excluded => none
      | .included => some left
      | .undecided =>
          if partsShown ||
              (value.isBare && !(projector.scopeAt (place ++ [step])).hasInclusion) then
            some left
          else none) =
      if projector.Shown tree (place ++ [step]) value then some left else none := by
  cases decided : projector.decisionAt (place ++ [step]) with
  | excluded =>
      have notShown : ¬ projector.Shown tree (place ++ [step]) value := by
        intro shown
        exact shown.unbarred.notExcluded decided
      exact (if_neg notShown).symm
  | included =>
      have shown : projector.Shown tree (place ++ [step]) value :=
        .included (admitted (by simp [decided])) decided
      exact (if_pos shown).symm
  | undecided =>
      have shown_iff_flag :
          projector.Shown tree (place ++ [step]) value ↔
            (partsShown ||
              (value.isBare &&
                !(projector.scopeAt (place ++ [step])).hasInclusion)) = true := by
        rw [shown_iff, ← partsShown_iff]
        simp [decided, admitted]
      simp only [shown_iff_flag]

theorem showValue_scalar
    {value : Json} (scalar : value.isScalar = true) (scope : Projector) (path : Path) :
    showValue tree value scope path =
      match (scope.project path).decision with
      | .excluded => none
      | .included => some value
      | .undecided => if scope.hasInclusion then none else some value := by
  cases value with
  | object members => cases scalar
  | array items => cases scalar
  | _ => rfl

private theorem decision_project (place : Place) (step : Step) :
    ((projector.scopeBeneath place).project (Place.path (place ++ [step]))).decision =
      projector.decisionAt (place ++ [step]) := by
  rw [decisionAt, scopeAt_concat]

private theorem nested_project (place : Place) (step : Step) :
    ((projector.scopeBeneath place).project (Place.path (place ++ [step]))).nested.getD
        (projector.scopeBeneath place) =
      projector.scopeBeneath (place ++ [step]) := by
  rw [scopeBeneath_concat, handOn]

/-- Beneath an undecided place the same scope is in force as at the place. -/
theorem scopeBeneath_of_undecided
    {place : Place} {step : Step}
    (undecided : projector.decisionAt (place ++ [step]) = .undecided) :
    projector.scopeBeneath (place ++ [step]) = projector.scopeAt (place ++ [step]) := by
  rw [scopeBeneath_concat, scopeAt_concat]
  apply handOn_eq_self
  intro included
  rw [decisionAt, scopeAt_concat, included] at undecided
  cases undecided

private theorem showValue_eq_of_isScalar
    {value : Json} (scalar : value.isScalar = true) {place : Place} {step : Step}
    (admitted :
      projector.decisionAt (place ++ [step]) ≠ .excluded →
        projector.Admitted tree (place ++ [step])) :
    showValue tree value (projector.scopeBeneath place) (Place.path (place ++ [step])) =
      if projector.Shown tree (place ++ [step]) value then
        some (value.keep (projector.Shown tree) (place ++ [step]))
      else none := by
  have bare : value.isBare = true := Json.isBare_of_isScalar scalar
  have noPartShown :
      false = true ↔
        ∃ next part,
          value.HasPart next part ∧
            projector.Shown tree (place ++ [step] ++ [next]) part := by
    constructor
    · intro impossible
      cases impossible
    · rintro ⟨next, part, found, _⟩
      exact (Json.not_hasPart_of_isBare bare found).elim
  rw [Json.keep_scalar _ scalar, ← answer_eq admitted noPartShown value, bare,
    showValue_scalar scalar, decision_project, scopeAt_concat]
  cases (projector.scopeBeneath place).hasInclusion <;> rfl

/-- The walk's answer about an object or an array, of which it has left only what is kept. -/
theorem composite_answer_eq
    (value left : Json) (nothingLeft : Bool) {place : Place} {step : Step}
    (admitted :
      projector.decisionAt (place ++ [step]) ≠ .excluded →
        projector.Admitted tree (place ++ [step]))
    (left_eq :
      projector.Admitted tree (place ++ [step]) →
        left = value.keep (projector.Shown tree) (place ++ [step]))
    (nothingLeft_iff :
      projector.Admitted tree (place ++ [step]) →
        (nothingLeft = true ↔
          ∀ next part,
            value.HasPart next part →
              ¬ projector.Shown tree (place ++ [step] ++ [next]) part)) :
    (match projector.decisionAt (place ++ [step]) with
      | .excluded => none
      | .included => some left
      | .undecided =>
          if !nothingLeft ||
              (value.isBare && !(projector.scopeBeneath (place ++ [step])).hasInclusion) then
            some left
          else none) =
      if projector.Shown tree (place ++ [step]) value then
        some (value.keep (projector.Shown tree) (place ++ [step]))
      else none := by
  by_cases excluded : projector.decisionAt (place ++ [step]) = .excluded
  · have notShown : ¬ projector.Shown tree (place ++ [step]) value := by
      intro shown
      exact shown.unbarred.notExcluded excluded
    rw [if_neg notShown, excluded]
  · have reached := admitted excluded
    have partsShown_iff :
        (!nothingLeft) = true ↔
          ∃ next part,
            value.HasPart next part ∧
              projector.Shown tree (place ++ [step] ++ [next]) part := by
      rw [Bool.not_eq_true', ← Bool.not_eq_true, nothingLeft_iff reached]
      push Not
      rfl
    rw [← left_eq reached, ← answer_eq admitted partsShown_iff left]
    cases decided : projector.decisionAt (place ++ [step]) with
    | excluded => rfl
    | included => rfl
    | undecided => rw [scopeBeneath_of_undecided decided]

mutual

/-- At a place that is admitted unless it is excluded, the walk shows a value exactly if the
place is shown, and shows of it what is kept. -/
theorem showValue_eq :
    ∀ (value : Json) (place : Place) (step : Step),
      (projector.decisionAt (place ++ [step]) ≠ .excluded →
        projector.Admitted tree (place ++ [step])) →
      showValue tree value (projector.scopeBeneath place) (Place.path (place ++ [step])) =
        if projector.Shown tree (place ++ [step]) value then
          some (value.keep (projector.Shown tree) (place ++ [step]))
        else none
  | .object members, place, step, admitted => by
      rw [showValue, decision_project, nested_project]
      refine composite_answer_eq (.object members) _ _ admitted ?_ ?_
      · intro reached
        rw [showMembers_eq members _ reached, Json.keep]
      · intro reached
        rw [showMembers_eq members _ reached, List.isEmpty_iff,
          Json.keepMembers_eq_nil_iff]
        constructor
        · intro none next part found
          cases next with
          | member name => exact none name part found
          | item index => cases found
        · intro none name value found
          exact none (.member name) value found
  | .array items, place, step, admitted => by
      rw [showValue, decision_project, nested_project]
      refine composite_answer_eq (.array items) _ _ admitted ?_ ?_
      · intro reached
        rw [showItems_eq items 0 _ reached, Json.keep]
      · intro reached
        rw [showItems_eq items 0 _ reached, List.isEmpty_iff, Json.keepItems_eq_nil_iff]
        simp only [Nat.zero_add]
        constructor
        · intro none next part found
          cases next with
          | member name => cases found
          | item index => exact none index part found
        · intro none index item found
          exact none (.item index) item found
  | .null, _, _, admitted => showValue_eq_of_isScalar rfl admitted
  | .bool _, _, _, admitted => showValue_eq_of_isScalar rfl admitted
  | .number _, _, _, admitted => showValue_eq_of_isScalar rfl admitted
  | .string _, _, _, admitted => showValue_eq_of_isScalar rfl admitted

theorem showMembers_eq :
    ∀ (members : Members) (place : Place),
      projector.Admitted tree place →
      showMembers tree members (projector.scopeBeneath place) (Place.path place) =
        Json.keepMembers (projector.Shown tree) members place
  | [], place, admitted => by
      rw [showMembers, Json.keepMembers]
  | (name, value) :: rest, place, admitted => by
      have restEq := showMembers_eq rest place admitted
      rw [showMembers, Json.keepMembers, restEq]
      cases found : tree.resolve? ((Place.path place).child name) with
      | none =>
          have notShown :
              ¬ projector.Shown tree (place ++ [.member name]) value := by
            intro shown
            have known := ((unbarred_member_iff projector tree place name).1 shown.unbarred).1
            rw [found] at known
            cases known
          rw [if_neg notShown]
          rfl
      | some node =>
          have admittedMember :
              projector.decisionAt (place ++ [.member name]) ≠ .excluded →
                projector.Admitted tree (place ++ [.member name]) := by
            intro notExcluded
            refine (admitted_concat_iff projector tree place _).2 ⟨admitted, ?_⟩
            exact (unbarred_member_iff projector tree place name).2
              ⟨by rw [found]; rfl, notExcluded⟩
          have valueEq := showValue_eq value place (.member name) admittedMember
          rw [Place.path_concat, Step.segment] at valueEq
          rw [valueEq]
          by_cases shown : projector.Shown tree (place ++ [.member name]) value
          · simp [shown]
          · simp [shown]

theorem showItems_eq :
    ∀ (items : List Json) (index : Nat) (place : Place),
      projector.Admitted tree place →
      showItems tree items index (projector.scopeBeneath place) (Place.path place) =
        Json.keepItems (projector.Shown tree) items index place
  | [], index, place, admitted => by
      rw [showItems, Json.keepItems]
  | item :: rest, index, place, admitted => by
      have restEq := showItems_eq rest (index + 1) place admitted
      have admittedItem :
          projector.decisionAt (place ++ [.item index]) ≠ .excluded →
            projector.Admitted tree (place ++ [.item index]) := by
        intro notExcluded
        exact (admitted_concat_iff projector tree place _).2
          ⟨admitted, (unbarred_item_iff projector tree place index).2 notExcluded⟩
      have itemEq := showValue_eq item place (.item index) admittedItem
      rw [Place.path_concat, Step.segment] at itemEq
      rw [showItems, Json.keepItems, restEq, itemEq]
      by_cases shown : projector.Shown tree (place ++ [.item index]) item
      · simp [shown]
      · simp [shown]

end

end Walk
end Schemata.Projector

import Schemata.Proofs.Projector.Shown

/-!
# The projected document, place by place

A projected document is the document with only its shown places kept. Which places these are is
told here for each place alone, without the walk: a place is shown by the decisions on the way to
it, and an object or an array also by what is shown anywhere beneath it.
-/
namespace Schemata.Projector

open Json (Step Place)

variable {projector : Projector} {tree : FieldTree}

theorem projectDocument_eq_keep
    (projector : Projector) (tree : FieldTree) (members : Members) :
    projectDocument projector tree (.object members) =
      .ok (Json.keep (projector.Shown tree) (.object members) []) := by
  have shownMembers :=
    showMembers_eq members [] (admitted_nil projector tree)
  rw [scopeBeneath_nil, Place.path_nil] at shownMembers
  rw [projectDocument, shownMembers, Json.keep]

theorem Admitted.of_prefix
    {place upTo : Place} (admitted : projector.Admitted tree place) (reached : upTo <+: place) :
    projector.Admitted tree upTo := by
  intro earlier prefixed notTop
  exact admitted earlier (prefixed.trans reached) notTop

/-- What is shown anywhere beneath a place shows the place. -/
theorem Shown.of_holds
    {place below : Place} {value part : Json}
    (found : value.Holds below part)
    (shown : projector.Shown tree (place ++ below) part) :
    projector.Shown tree place value := by
  induction below generalizing place value with
  | nil =>
      cases found
      rwa [List.append_nil] at shown
  | cons step rest hypothesis =>
      obtain ⟨next, here, foundRest⟩ := found
      rw [List.append_cons] at shown
      have shownNext := hypothesis foundRest shown
      have admitted := shownNext.admitted.of_prefix (List.prefix_append place [step])
      exact .around admitted here shownNext

private theorem exists_part_shown_iff {place : Place} {value : Json} :
    (∃ step part,
        value.HasPart step part ∧ projector.Shown tree (place ++ [step]) part) ↔
      ∃ below part,
        below ≠ [] ∧ value.Holds below part ∧
          projector.Shown tree (place ++ below) part := by
  constructor
  · rintro ⟨step, part, found, shown⟩
    exact ⟨[step], part, by simp, ⟨part, found, rfl⟩, shown⟩
  · rintro ⟨below, part, beneath, found, shown⟩
    cases below with
    | nil => exact (beneath rfl).elim
    | cons step rest =>
        obtain ⟨next, here, foundRest⟩ := found
        rw [List.append_cons] at shown
        exact ⟨step, next, here, .of_holds foundRest shown⟩

theorem shown_scalar_iff
    {place : Place} {value : Json} (scalar : value.isScalar = true) :
    projector.Shown tree place value ↔
      projector.Admitted tree place ∧
        (projector.decisionAt place = .included ∨
          (projector.decisionAt place = .undecided ∧
            (projector.scopeAt place).hasInclusion = false)) := by
  have bare := Json.isBare_of_isScalar scalar
  have noPart :
      ¬ ∃ step part,
        value.HasPart step part ∧ projector.Shown tree (place ++ [step]) part := by
    rintro ⟨step, part, found, _⟩
    exact Json.not_hasPart_of_isBare bare found
  rw [shown_iff]
  simp only [noPart, bare, true_and, false_or]

private theorem shown_composite_iff {place : Place} {value : Json} :
    projector.Shown tree place value ↔
      projector.Admitted tree place ∧
        (projector.decisionAt place = .included ∨
          (∃ below part,
            below ≠ [] ∧ value.Holds below part ∧
              projector.Shown tree (place ++ below) part) ∨
          (value.isBare = true ∧ projector.decisionAt place = .undecided ∧
            (projector.scopeAt place).hasInclusion = false)) := by
  rw [shown_iff, exists_part_shown_iff]

/-- The projected document is the document with its shown places kept. The projector itself
decides about the places right beneath the document, and about a part whatever the decision on
the whole hands on, or else what decided about the whole. A scalar is shown exactly if the
way to it is free and it is included, or left to a scope that includes nothing. An object or an
array is shown exactly if the way to it is free and it is included, or something beneath it is
shown, or it is empty and left to a scope that includes nothing. -/
theorem projectDocument_pointwise
    (projector : Projector) (tree : FieldTree) (members : Members) :
    projectDocument projector tree (.object members) =
        .ok (Json.keep (projector.Shown tree) (.object members) []) ∧
      (∀ step, projector.scopeAt [step] = projector) ∧
      (∀ above step next,
        projector.scopeAt (above ++ [step] ++ [next]) =
          ((projector.scopeAt (above ++ [step])).project
              (Place.path (above ++ [step]))).nested.getD
            (projector.scopeAt (above ++ [step]))) ∧
      (∀ place value, value.isScalar = true →
        (projector.Shown tree place value ↔
          projector.Admitted tree place ∧
            (projector.decisionAt place = .included ∨
              (projector.decisionAt place = .undecided ∧
                (projector.scopeAt place).hasInclusion = false)))) ∧
      ∀ place value, value.isScalar = false →
        (projector.Shown tree place value ↔
          projector.Admitted tree place ∧
            (projector.decisionAt place = .included ∨
              (∃ below part,
                below ≠ [] ∧ value.Holds below part ∧
                  projector.Shown tree (place ++ below) part) ∨
              (value.isBare = true ∧ projector.decisionAt place = .undecided ∧
                (projector.scopeAt place).hasInclusion = false))) := by
  refine ⟨projectDocument_eq_keep projector tree members, scopeAt_first projector, ?_, ?_, ?_⟩
  · intro above step next
    rw [scopeAt_concat projector (above ++ [step]) next]
    exact scopeBeneath_eq_handOn projector (by simp)
  · intro place value scalar
    exact shown_scalar_iff scalar
  · intro place value _
    exact shown_composite_iff

end Schemata.Projector

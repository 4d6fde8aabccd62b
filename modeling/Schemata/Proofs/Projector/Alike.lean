import Schemata.Proofs.Projector.Rules
import Schemata.Projector.Document

/-!
# Projectors that are alike

When one projector may stand for another: both answer the same about every path, up to the rules
that they name, and so they show the same of every document. Lists and ranges of projectors that are
alike are alike.
-/
namespace Schemata.Projector

theorem anyExactMatch_eq_any (items : List Projector) :
    anyExactMatch items = items.any exactMatch := by
  induction items with
  | nil => rfl
  | cons item rest hypothesis => rw [anyExactMatch, hypothesis, List.any_cons]

theorem anyInclusion_eq_any (items : List Projector) :
    anyInclusion items = items.any hasInclusion := by
  induction items with
  | nil => rfl
  | cons item rest hypothesis => rw [anyInclusion, hypothesis, List.any_cons]

/-- Two projectors show the same of every value. -/
structure ShowsAlike (left right : Projector) : Prop where
  inclusion : left.hasInclusion = right.hasInclusion
  shown :
    ∀ tree value path, showValue tree value left path = showValue tree value right path

/-- Two answers decide the same and hand on to projectors that show the same. -/
structure AnswerAlike (left right : Projected) : Prop where
  decision : left.decision = right.decision
  nested : Option.Rel ShowsAlike left.nested right.nested

/-- Two projectors answer alike about every path. The rules that they name may differ, since a rule
holds all that is nested in it. -/
structure Alike (left right : Projector) : Prop where
  exact : left.exactMatch = right.exactMatch
  inclusion : left.hasInclusion = right.hasInclusion
  answers : ∀ path, AnswerAlike (project left path) (project right path)

theorem ShowsAlike.refl (projector : Projector) : ShowsAlike projector projector :=
  ⟨rfl, fun _ _ _ => rfl⟩

theorem ShowsAlike.trans
    {left middle right : Projector}
    (first : ShowsAlike left middle) (second : ShowsAlike middle right) :
    ShowsAlike left right :=
  ⟨first.inclusion.trans second.inclusion, fun tree value path =>
    (first.shown tree value path).trans (second.shown tree value path)⟩

theorem AnswerAlike.refl (answer : Projected) : AnswerAlike answer answer := by
  refine ⟨rfl, ?_⟩
  cases answer.nested with
  | none => exact .none
  | some nested => exact .some (.refl nested)

theorem AnswerAlike.trans
    {left middle right : Projected}
    (first : AnswerAlike left middle) (second : AnswerAlike middle right) :
    AnswerAlike left right := by
  refine ⟨first.decision.trans second.decision, ?_⟩
  have firstNested := first.nested
  have secondNested := second.nested
  revert firstNested secondNested
  generalize left.nested = leftNested
  generalize middle.nested = middleNested
  generalize right.nested = rightNested
  intro firstNested secondNested
  cases firstNested with
  | none => exact secondNested
  | some before =>
      cases secondNested with
      | some after => exact .some (before.trans after)

theorem Alike.refl (projector : Projector) : Alike projector projector :=
  ⟨rfl, rfl, fun _ => .refl _⟩

theorem Alike.trans
    {left middle right : Projector}
    (first : Alike left middle) (second : Alike middle right) :
    Alike left right :=
  ⟨first.exact.trans second.exact, first.inclusion.trans second.inclusion,
    fun path => (first.answers path).trans (second.answers path)⟩

theorem ShowsAlike.showMembers_eq
    {left right : Projector} (alike : ShowsAlike left right) (tree : FieldTree)
    (members : Members) (path : Path) :
    showMembers tree members left path = showMembers tree members right path := by
  induction members with
  | nil => rfl
  | cons member rest hypothesis =>
      obtain ⟨name, value⟩ := member
      rw [showMembers, showMembers, hypothesis, alike.shown]

theorem ShowsAlike.showItems_eq
    {left right : Projector} (alike : ShowsAlike left right) (tree : FieldTree)
    (items : List Json) (index : Nat) (path : Path) :
    showItems tree items index left path = showItems tree items index right path := by
  induction items generalizing index with
  | nil => rfl
  | cons item rest hypothesis =>
      rw [showItems, showItems, hypothesis, alike.shown]

/-- What is the same of two projectors and of any two that show the same is the same beneath every
path. -/
theorem Alike.beneath
    {left right : Projector} (alike : Alike left right) {β : Type} (question : Projector → β)
    (here : question left = question right)
    (nested : ∀ {first second}, ShowsAlike first second → question first = question second)
    (path : Path) :
    question ((project left path).nested.getD left) =
      question ((project right path).nested.getD right) := by
  have handed := (alike.answers path).nested
  revert handed
  generalize (project left path).nested = leftNested
  generalize (project right path).nested = rightNested
  intro handed
  cases handed with
  | none => exact here
  | some same => exact nested same

mutual

theorem Alike.showValue_eq
    {left right : Projector} (alike : Alike left right) (tree : FieldTree) :
    ∀ (value : Json) (path : Path),
      showValue tree value left path = showValue tree value right path
  | .object members, path => by
      have shown :=
        alike.beneath (showMembers tree members · path)
          (alike.showMembers_eq tree members path)
          (fun same => same.showMembers_eq tree members path) path
      have inclusion := alike.beneath hasInclusion alike.inclusion ShowsAlike.inclusion path
      rw [showValue, showValue]
      simp only [(alike.answers path).decision, shown, inclusion]
  | .array items, path => by
      have shown :=
        alike.beneath (showItems tree items 0 · path)
          (alike.showItems_eq tree items 0 path)
          (fun same => same.showItems_eq tree items 0 path) path
      have inclusion := alike.beneath hasInclusion alike.inclusion ShowsAlike.inclusion path
      rw [showValue, showValue]
      simp only [(alike.answers path).decision, shown, inclusion]
  | .null, path => by
      simp only [showValue, (alike.answers path).decision, alike.inclusion]
  | .bool _, path => by
      simp only [showValue, (alike.answers path).decision, alike.inclusion]
  | .number _, path => by
      simp only [showValue, (alike.answers path).decision, alike.inclusion]
  | .string _, path => by
      simp only [showValue, (alike.answers path).decision, alike.inclusion]

theorem Alike.showMembers_eq
    {left right : Projector} (alike : Alike left right) (tree : FieldTree) :
    ∀ (members : List (String × Json)) (path : Path),
      showMembers tree members left path = showMembers tree members right path
  | [], _ => rfl
  | (name, value) :: rest, path => by
      rw [showMembers, showMembers, alike.showMembers_eq tree rest path,
        alike.showValue_eq tree value (path.child name)]

theorem Alike.showItems_eq
    {left right : Projector} (alike : Alike left right) (tree : FieldTree) :
    ∀ (items : List Json) (index : Nat) (path : Path),
      showItems tree items index left path = showItems tree items index right path
  | [], _, _ => rfl
  | item :: rest, index, path => by
      rw [showItems, showItems, alike.showItems_eq tree rest (index + 1) path,
        alike.showValue_eq tree item (path.child index.repr)]

end

theorem Alike.showsAlike {left right : Projector} (alike : Alike left right) :
    ShowsAlike left right :=
  ⟨alike.inclusion, fun tree value path => alike.showValue_eq tree value path⟩

theorem Alike.projectDocument_eq
    {left right : Projector} (alike : Alike left right) (tree : FieldTree) (document : Json) :
    projectDocument left tree document = projectDocument right tree document := by
  cases document with
  | object members => rw [projectDocument, projectDocument, alike.showMembers_eq]
  | _ => rfl

theorem Alike.list
    {item other : Projector} (alike : Alike item other) (front back : List Projector) :
    Alike (.list (front ++ item :: back)) (.list (front ++ other :: back)) := by
  refine ⟨?_, ?_, fun path => ?_⟩
  · rw [exactMatch, exactMatch, anyExactMatch_eq_any, anyExactMatch_eq_any]
    simp [alike.exact]
  · rw [hasInclusion, hasInclusion, anyInclusion_eq_any, anyInclusion_eq_any]
    simp [alike.inclusion]
  · have answer := alike.answers path
    have sameDecided : (project item path).isDecided = (project other path).isDecided :=
      congrArg Decision.isDecided answer.decision
    rw [project, project, projectLast_append, projectLast_append, projectLast, projectLast]
    by_cases later : (projectLast back path).isDecided
    · simp only [if_pos later]
      exact .refl _
    · simp only [if_neg later, sameDecided]
      split
      · exact answer
      · exact .refl _

theorem Alike.range
    {nested other : Projector} (alike : Alike nested other) (target : Path) (included : Bool)
    (first last : UInt64) :
    Alike (.range target included first last (some nested))
      (.range target included first last (some other)) := by
  refine ⟨rfl, rfl, fun path => ?_⟩
  rw [project, project, projectRange, projectRange]
  split
  · split
    · exact ⟨rfl, .none⟩
    · exact .refl _
  · split
    · split
      · cases included with
        | true => exact ⟨rfl, .some alike.showsAlike⟩
        | false => exact ⟨rfl, .none⟩
      · exact .refl _
    · exact .refl _

end Schemata.Projector

import Mathlib.Data.List.Infix
import Schemata.Proofs.Json.Place
import Schemata.Projector.Document

/-!
# Scopes

Which projector decides about which place of a document. The projector at the top decides about
the places right beneath the document. Further down it is the projector that the decision on the
place above hands on, or the same one if that hands on none.
-/
namespace Schemata.Projector

open Json (Step Place)

theorem projectField_nested
    (rule : Projector) (target : Path) (included recursive : Bool) (path : Path) :
    (projectField rule target included recursive path).nested = none := by
  unfold projectField
  split
  · split <;> rfl
  · split <;> rfl

/-- The path is that of an element within a range, and not of something beneath one. -/
structure SelectsElement (target : Path) (first last : UInt64) (path : Path) : Prop where
  selected : selects target first last path = true
  atElement : path.length = target.length + 1

private theorem projectRange_nested
    {rule : Projector} {target : Path} {included : Bool} {first last : UInt64}
    {handed : Option Projector} {path : Path} {nested : Projector}
    (handsOn :
      (projectRange rule target included first last handed path).nested = some nested) :
    included = true ∧ handed = some nested ∧
      SelectsElement target first last path ∧
      projectRange rule target included first last handed path =
        ⟨.included, some nested, some rule⟩ := by
  unfold projectRange at handsOn ⊢
  split at handsOn
  · split at handsOn <;> cases handsOn
  · next beyond =>
      rw [if_neg beyond]
      split at handsOn
      · next selected =>
          rw [if_pos selected]
          split at handsOn
          · next element =>
              rw [if_pos element]
              cases included with
              | false => cases handsOn
              | true =>
                  have same : handed = some nested := handsOn
                  exact ⟨rfl, same, ⟨selected, element⟩, by rw [same]; rfl⟩
          · split at handsOn <;> cases handsOn
      · cases handsOn

mutual

/-- Only an including range rule hands on, to its own nested projector, and only at an element
within its range about which it is the rule that decides. -/
theorem project_nested :
    ∀ {projector : Projector} {path : Path} {nested : Projector},
      (project projector path).nested = some nested →
        ∃ target first last, SelectsElement target first last path ∧
          project projector path =
            ⟨.included, some nested, some (.range target true first last (some nested))⟩
  | .field target included recursive, path, nested, handsOn => by
      rw [project, projectField_nested] at handsOn
      cases handsOn
  | .range target included first last handed, path, nested, handsOn => by
      rw [project] at handsOn ⊢
      obtain ⟨rfl, rfl, selects, answer⟩ := projectRange_nested handsOn
      exact ⟨target, first, last, selects, answer⟩
  | .list items, path, nested, handsOn => by
      rw [project] at handsOn ⊢
      exact projectLast_nested handsOn

theorem projectLast_nested :
    ∀ {items : List Projector} {path : Path} {nested : Projector},
      (projectLast items path).nested = some nested →
        ∃ target first last, SelectsElement target first last path ∧
          projectLast items path =
            ⟨.included, some nested, some (.range target true first last (some nested))⟩
  | [], path, nested, handsOn => by
      cases handsOn
  | item :: rest, path, nested, handsOn => by
      simp only [projectLast] at handsOn ⊢
      split at handsOn
      · next later =>
          rw [if_pos later]
          exact projectLast_nested handsOn
      · next earlier =>
          rw [if_neg earlier]
          exact project_nested handsOn

end

/-- The projector in force beneath a path: the one that the answer about the path hands on, or
else the one that gave the answer. -/
def handOn (scope : Projector) (path : Path) : Projector :=
  (scope.project path).nested.getD scope

theorem handOn_eq_self
    {scope : Projector} {path : Path}
    (notIncluded : (scope.project path).decision ≠ .included) :
    scope.handOn path = scope := by
  unfold handOn
  cases handed : (scope.project path).nested with
  | none => rfl
  | some nested =>
      obtain ⟨_, _, _, _, answer⟩ := project_nested handed
      exact (notIncluded (by rw [answer])).elim

/-- The projector in force beneath a place, if one is in force beneath what is above. -/
def scopeFrom (scope : Projector) (above : Place) : Place → Projector
  | [] => scope
  | step :: rest =>
      scopeFrom (scope.handOn (Place.path (above ++ [step]))) (above ++ [step]) rest

/-- The projector in force beneath a place of a document. -/
def scopeBeneath (projector : Projector) (place : Place) : Projector :=
  scopeFrom projector [] place

/-- The projector that decides about a place of a document: the one in force beneath the place
above. -/
def scopeAt (projector : Projector) (place : Place) : Projector :=
  projector.scopeBeneath place.dropLast

def decisionAt (projector : Projector) (place : Place) : Decision :=
  ((projector.scopeAt place).project (Place.path place)).decision

private theorem scopeFrom_concat
    (scope : Projector) (above place : Place) (step : Step) :
    scopeFrom scope above (place ++ [step]) =
      (scopeFrom scope above place).handOn (Place.path (above ++ place ++ [step])) := by
  induction place generalizing scope above with
  | nil => simp [scopeFrom]
  | cons first rest hypothesis =>
      simp only [List.cons_append, scopeFrom]
      rw [hypothesis]
      simp

@[simp]
theorem scopeBeneath_nil (projector : Projector) :
    projector.scopeBeneath [] = projector :=
  rfl

theorem scopeBeneath_concat
    (projector : Projector) (place : Place) (step : Step) :
    projector.scopeBeneath (place ++ [step]) =
      (projector.scopeBeneath place).handOn (Place.path (place ++ [step])) := by
  simp [scopeBeneath, scopeFrom_concat]

@[simp]
theorem scopeAt_concat
    (projector : Projector) (place : Place) (step : Step) :
    projector.scopeAt (place ++ [step]) = projector.scopeBeneath place := by
  simp [scopeAt]

/-- The scope of the places right beneath a document is the projector itself. -/
theorem scopeAt_first (projector : Projector) (step : Step) :
    projector.scopeAt [step] = projector :=
  rfl

/-- In force beneath a place is what decides about the place, or what that hands on. -/
theorem scopeBeneath_eq_handOn
    (projector : Projector) {place : Place} (notTop : place ≠ []) :
    projector.scopeBeneath place =
      (projector.scopeAt place).handOn (Place.path place) := by
  obtain ⟨above, step, rfl⟩ := place.eq_nil_or_concat'.resolve_left notTop
  rw [scopeBeneath_concat, scopeAt_concat]

end Schemata.Projector

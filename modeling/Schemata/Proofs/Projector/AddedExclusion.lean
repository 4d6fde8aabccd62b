import Schemata.Proofs.Json.Part
import Schemata.Proofs.Projector.Alike
import Schemata.Proofs.Projector.LastExclusion

/-!
# An exclusion added to a list

A list with one more exclusion behind its rules shows a part of what it showed before. At each path
the longer list either excludes or answers as the shorter one does. So their scopes stay in step on
the way to any place that the longer list shows, also where both hand on to a nested projector.
-/
namespace Schemata.Projection

/-- A field rule or a range rule that excludes. -/
def isExclusion : Projection → Bool
  | .field _ included _ => !included
  | .range _ included _ _ _ => !included
  | .list _ => false

end Schemata.Projection

namespace Schemata.Projector

open Json (Step Place)

private theorem projectField_ne_included
    (rule : Projector) (target : Path) (recursive : Bool) (path : Path) :
    (projectField rule target false recursive path).decision ≠ .included := by
  unfold projectField
  split
  · split <;> nofun
  · split <;> nofun

private theorem projectRange_ne_included
    (rule : Projector) (target : Path) (first last : UInt64) (nested : Option Projector)
    (path : Path) :
    (projectRange rule target false first last nested path).decision ≠ .included := by
  unfold projectRange
  split
  · nofun
  · split
    · split
      · nofun
      · split <;> nofun
    · nofun

mutual

theorem project_ne_included :
    ∀ {projector : Projector}, projector.hasInclusion = false →
      ∀ path, (project projector path).decision ≠ .included
  | .field target included recursive, noInclusion, path => by
      have excludes : included = false := noInclusion
      rw [project, excludes]
      exact projectField_ne_included _ target recursive path
  | .range target included first last nested, noInclusion, path => by
      have excludes : included = false := noInclusion
      rw [project, excludes]
      exact projectRange_ne_included _ target first last nested path
  | .list items, noInclusion, path => by
      rw [hasInclusion] at noInclusion
      rw [project]
      exact projectLast_ne_included noInclusion path

theorem projectLast_ne_included :
    ∀ {items : List Projector}, anyInclusion items = false →
      ∀ path, (projectLast items path).decision ≠ .included
  | [], _, _ => by nofun
  | item :: rest, noInclusion, path => by
      rw [anyInclusion, Bool.or_eq_false_iff] at noInclusion
      rw [projectLast]
      split
      · exact projectLast_ne_included noInclusion.2 path
      · exact project_ne_included noInclusion.1 path

end

/-- One projector excludes what another one does not, and otherwise answers as that one does. -/
structure ExcludesMore (original extended : Projector) : Prop where
  inclusion : extended.hasInclusion = original.hasInclusion
  answers :
    ∀ path, (extended.project path).decision = .excluded ∨
      extended.project path = original.project path

theorem ExcludesMore.refl (projector : Projector) : ExcludesMore projector projector :=
  ⟨rfl, fun _ => Or.inr rfl⟩

/-- A rule without inclusions behind the others only excludes. -/
theorem excludesMore_concat
    (items : List Projector) {exclusion : Projector}
    (noInclusion : exclusion.hasInclusion = false) :
    ExcludesMore (.list items) (.list (items ++ [exclusion])) where
  inclusion := by
    rw [hasInclusion, hasInclusion, anyInclusion_eq_any, anyInclusion_eq_any]
    simp [noInclusion]
  answers := by
    intro path
    rw [project, project, projectLast_append, projectLast_singleton]
    have notIncluded := project_ne_included noInclusion path
    by_cases decided : (project exclusion path).isDecided
    · rw [if_pos decided]
      left
      cases decision : (project exclusion path).decision with
      | excluded => rfl
      | included => exact (notIncluded decision).elim
      | undecided =>
          rw [Projected.isDecided, decision] at decided
          cases decided
    · rw [if_neg decided]
      right
      rfl

variable {original extended : Projector} {tree : FieldTree}

theorem ExcludesMore.project_eq
    (excludesMore : ExcludesMore original extended) {path : Path}
    (notExcluded : (extended.project path).decision ≠ .excluded) :
    extended.project path = original.project path :=
  (excludesMore.answers path).resolve_left notExcluded

theorem ExcludesMore.handOn
    (excludesMore : ExcludesMore original extended) {path : Path}
    (notExcluded : (extended.project path).decision ≠ .excluded) :
    ExcludesMore (original.handOn path) (extended.handOn path) := by
  have same := excludesMore.project_eq notExcluded
  unfold Projector.handOn
  rw [same]
  cases (original.project path).nested with
  | none => exact excludesMore
  | some nested => exact .refl nested

/-- On the way to a place that is not excluded the scopes stay in step. -/
theorem ExcludesMore.scopeBeneath
    (excludesMore : ExcludesMore original extended) {place : Place}
    (reached : extended.Admitted tree place) :
    ExcludesMore (original.scopeBeneath place) (extended.scopeBeneath place) := by
  induction place using List.reverseRecOn with
  | nil => exact excludesMore
  | append_singleton above step hypothesis =>
      obtain ⟨reachedAbove, unbarred⟩ := (admitted_concat_iff extended tree above step).1 reached
      have inStep := hypothesis reachedAbove
      have notExcluded := unbarred.notExcluded
      rw [decisionAt, scopeAt_concat] at notExcluded
      rw [scopeBeneath_concat, scopeBeneath_concat]
      exact inStep.handOn notExcluded

/-- Where nothing above is excluded, nor the place itself, both decide the same in scopes that
include something or nothing alike. -/
theorem ExcludesMore.decisionAt_eq
    (excludesMore : ExcludesMore original extended) {place : Place}
    (reached : extended.Admitted tree place)
    (notExcluded : extended.decisionAt place ≠ .excluded) :
    extended.decisionAt place = original.decisionAt place ∧
      (extended.scopeAt place).hasInclusion = (original.scopeAt place).hasInclusion := by
  have reachedAbove := reached.of_prefix (List.dropLast_prefix place)
  have inStep := excludesMore.scopeBeneath reachedAbove
  have same := inStep.project_eq notExcluded
  exact ⟨congrArg Projected.decision same, inStep.inclusion⟩

theorem ExcludesMore.admitted
    (excludesMore : ExcludesMore original extended) {place : Place}
    (reached : extended.Admitted tree place) :
    original.Admitted tree place := by
  intro upTo onTheWay notTop
  have unbarred := reached upTo onTheWay notTop
  have same := excludesMore.decisionAt_eq (reached.of_prefix onTheWay) unbarred.notExcluded
  refine ⟨unbarred.known, ?_⟩
  rw [← same.1]
  exact unbarred.notExcluded

theorem ExcludesMore.shown
    (excludesMore : ExcludesMore original extended) {place : Place} {value : Json}
    (shown : extended.Shown tree place value) :
    original.Shown tree place value := by
  induction shown with
  | included reached included =>
      have same := excludesMore.decisionAt_eq reached (by simp [included])
      rw [included] at same
      exact .included (excludesMore.admitted reached) same.1.symm
  | unmentioned reached bare undecided noInclusion =>
      have same := excludesMore.decisionAt_eq reached (by simp [undecided])
      rw [undecided, noInclusion] at same
      exact .unmentioned (excludesMore.admitted reached) bare same.1.symm same.2.symm
  | around reached found _ hypothesis =>
      exact .around (excludesMore.admitted reached) found hypothesis

/-- A scalar that was shown is no longer shown only if it is now excluded, or something on the way
to it. -/
theorem ExcludesMore.shown_scalar_iff
    (excludesMore : ExcludesMore original extended) {place : Place} (notTop : place ≠ [])
    {value : Json} (scalar : value.isScalar = true) (shown : original.Shown tree place value) :
    extended.Shown tree place value ↔ extended.Admitted tree place := by
  constructor
  · exact Shown.admitted
  · intro reached
    have notExcluded := (reached place List.prefix_rfl notTop).notExcluded
    have same := excludesMore.decisionAt_eq reached notExcluded
    rw [Projector.shown_scalar_iff scalar] at shown ⊢
    rw [same.1, same.2]
    exact ⟨reached, shown.2⟩

private theorem hasInclusion_of_compile_exclusion
    {exclusion : Projection} {contextPath : Path} {context : NodeId} {compiled : Projector}
    (excludes : exclusion.isExclusion = true)
    (success : compile tree exclusion contextPath context = .ok compiled) :
    compiled.hasInclusion = false := by
  cases exclusion with
  | field target included recursive =>
      obtain ⟨_, deep, _, rfl⟩ := compile_field_eq_ok success
      simpa [Projection.isExclusion, hasInclusion] using excludes
  | range target included first last project =>
      obtain ⟨nested, rfl⟩ := compile_range_eq_ok success
      simpa [Projection.isExclusion, hasInclusion] using excludes
  | list rules => cases excludes

private theorem excludesMore_of_compile
    {rules : List Projection} {exclusion : Projection}
    (excludes : exclusion.isExclusion = true)
    (compiled : compile tree (.list rules) .root FieldTree.root = .ok original)
    (compiledMore :
      compile tree (.list (rules ++ [exclusion])) .root FieldTree.root = .ok extended) :
    ExcludesMore original extended := by
  obtain ⟨items, itemsCompiled, rfl⟩ := compile_list_eq_ok_iff.1 compiled
  obtain ⟨moreItems, moreCompiled, rfl⟩ := compile_list_eq_ok_iff.1 compiledMore
  obtain ⟨earlier, later, earlierCompiled, lastCompiled, rfl⟩ :=
    compileAll_append_eq_ok_iff.1 moreCompiled
  obtain ⟨item, others, itemCompiled, noOthers, rfl⟩ :=
    compileAll_cons_eq_ok_iff.1 lastCompiled
  cases noOthers
  rw [itemsCompiled] at earlierCompiled
  cases earlierCompiled
  exact excludesMore_concat items (hasInclusion_of_compile_exclusion excludes itemCompiled)

/-- A list with an exclusion added behind its rules shows of every document a part of what it showed
without it. Of the scalars that were shown only those are missing that are excluded now, or beneath
something that is. What is no object is projected by neither. -/
theorem projectDocument_isPart_of_exclusion_added
    {rules : List Projection} {exclusion : Projection}
    (excludes : exclusion.isExclusion = true)
    (compiled : compile tree (.list rules) .root FieldTree.root = .ok original)
    (compiledMore :
      compile tree (.list (rules ++ [exclusion])) .root FieldTree.root = .ok extended) :
    (∀ members, ∃ shown fewer,
      projectDocument original tree (.object members) = .ok shown ∧
        projectDocument extended tree (.object members) = .ok fewer ∧
        fewer.IsPart shown ∧
        shown = Json.keep (original.Shown tree) (.object members) [] ∧
        fewer = Json.keep (extended.Shown tree) (.object members) []) ∧
      (∀ place value, place ≠ [] → value.isScalar = true → original.Shown tree place value →
        (extended.Shown tree place value ↔ extended.Admitted tree place)) ∧
      ∀ document : Json, document.object? = none →
        projectDocument original tree document = .error .notAnObject ∧
          projectDocument extended tree document = .error .notAnObject := by
  have excludesMore := excludesMore_of_compile excludes compiled compiledMore
  have still :
      ∀ place value, extended.Shown tree place value → original.Shown tree place value :=
    fun _ _ shown => excludesMore.shown shown
  refine ⟨fun members => ?_, ?_, ?_⟩
  · have part := Json.partAt_keep_of_fewer still (.object members) [] []
    exact ⟨_, _, projectDocument_eq_keep original tree members,
      projectDocument_eq_keep extended tree members, part, rfl, rfl⟩
  · intro place value notTop scalar shown
    exact excludesMore.shown_scalar_iff notTop scalar shown
  · intro document noObject
    cases document with
    | object members => cases noObject
    | _ => exact ⟨rfl, rfl⟩

def linesProjector : Projector :=
  .list [.field ⟨["lines"]⟩ true true]

/-- Excludes the lines from the second to the sixth. What is nested in the rule has no say. -/
def laterLinesRule : Projection :=
  .range ⟨["lines"]⟩ false 1 5 (some (.including ⟨["sku"]⟩))

def fewerLinesProjector : Projector :=
  .list [
    .field ⟨["lines"]⟩ true true,
    .range ⟨["lines"]⟩ false 1 5 (some (.field skuOfEveryLine true false))]

theorem later_lines_are_left_out :
    laterLinesRule.isExclusion = true ∧
      compile linesTree (.list [.includingSubtree ⟨["lines"]⟩]) .root FieldTree.root =
        .ok linesProjector ∧
      compile linesTree (.list ([.includingSubtree ⟨["lines"]⟩] ++ [laterLinesRule])) .root
        FieldTree.root = .ok fewerLinesProjector ∧
      projectDocument linesProjector linesTree (linesWith ["A", "B"]) =
        .ok (linesWith ["A", "B"]) ∧
      projectDocument fewerLinesProjector linesTree (linesWith ["A", "B"]) =
        .ok (linesWith ["A"]) ∧
      (linesWith ["A"]).IsPart (linesWith ["A", "B"]) := by
  have excludes : laterLinesRule.isExclusion = true := rfl
  have compiled :
      compile linesTree (.list [.includingSubtree ⟨["lines"]⟩]) .root FieldTree.root =
        .ok linesProjector := by
    rfl
  have compiledMore :
      compile linesTree (.list ([.includingSubtree ⟨["lines"]⟩] ++ [laterLinesRule])) .root
        FieldTree.root = .ok fewerLinesProjector := by
    rfl
  obtain ⟨shown, fewer, shownEq, fewerEq, part, _⟩ :=
    (projectDocument_isPart_of_exclusion_added excludes compiled compiledMore).1
      [("lines", .array (["A", "B"].map fun number => .object [("sku", .string number)]))]
  cases shownEq
  cases fewerEq
  exact ⟨excludes, compiled, compiledMore, by rfl, by rfl, part⟩

end Schemata.Projector

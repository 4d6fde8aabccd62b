import Schemata.Proofs.Json.Part
import Schemata.Proofs.Projector.Flattening
import Schemata.Proofs.Projector.LastExclusion

/-!
# An inclusion added to a list

Where field rules include something, a further inclusion behind them shows all that was shown
before. It turns what was excluded or undecided into something included and changes no other
decision. What no rule decides was not shown by itself, so nothing is lost by the rule; but an array
may gain items in front of others, so that these move to other indexes.
-/
namespace Schemata.Projection

def IncludesField (projection : Projection) : Prop :=
  ∃ target recursive, .field target true recursive ∈ projection.leaves

end Schemata.Projection

namespace Schemata.Projector

open Json (Step Place)

variable {original added extended projector : Projector} {tree : FieldTree}

theorem HasOnlyFields.scopeBeneath_eq_self
    (fields : projector.HasOnlyFields) (place : Place) :
    projector.scopeBeneath place = projector := by
  induction place using List.reverseRecOn with
  | nil => rfl
  | append_singleton above step hypothesis =>
      rw [scopeBeneath_concat, hypothesis, handOn, fields.nested_eq_none, Option.getD_none]

theorem HasOnlyFields.decisionAt_eq (fields : projector.HasOnlyFields) (place : Place) :
    projector.decisionAt place = (projector.project (Place.path place)).decision := by
  rw [decisionAt, scopeAt, fields.scopeBeneath_eq_self]

/-- A projector of field rules includes whatever an added rule decides, and otherwise decides as the
original does, which includes something already. -/
structure IncludesMore (original added extended : Projector) : Prop where
  fields : original.HasOnlyFields
  fieldsMore : extended.HasOnlyFields
  inclusion : original.hasInclusion = true
  inclusionMore : extended.hasInclusion = true
  gained :
    ∀ path, (added.project path).isDecided = true →
      (added.project path).decision = .included ∧ (extended.project path).decision = .included
  kept :
    ∀ path, (added.project path).isDecided = false →
      (extended.project path).decision = (original.project path).decision

namespace IncludesMore

variable (includesMore : IncludesMore original added extended)
include includesMore

private theorem decisionAt_cases (place : Place) :
    (added.project (Place.path place)).decision = .included ∧
        extended.decisionAt place = .included ∨
      extended.decisionAt place = original.decisionAt place := by
  rw [includesMore.fields.decisionAt_eq, includesMore.fieldsMore.decisionAt_eq]
  cases decided : (added.project (Place.path place)).isDecided with
  | true => exact Or.inl (includesMore.gained _ decided)
  | false => exact Or.inr (includesMore.kept _ decided)

theorem admitted {place : Place} (reached : original.Admitted tree place) :
    extended.Admitted tree place := by
  intro upTo onTheWay notTop
  have unbarred := reached upTo onTheWay notTop
  refine ⟨unbarred.known, ?_⟩
  rcases includesMore.decisionAt_cases upTo with ⟨_, included⟩ | same
  · simp [included]
  · rw [same]
    exact unbarred.notExcluded

theorem shown {place : Place} {value : Json} (shown : original.Shown tree place value) :
    extended.Shown tree place value := by
  induction shown with
  | included reached included =>
      apply Shown.included (includesMore.admitted reached)
      rcases includesMore.decisionAt_cases _ with ⟨_, gained⟩ | same
      · exact gained
      · rw [same, included]
  | unmentioned _ _ _ noInclusion =>
      rw [scopeAt, includesMore.fields.scopeBeneath_eq_self, includesMore.inclusion] at noInclusion
      cases noInclusion
  | around reached found _ hypothesis =>
      exact .around (includesMore.admitted reached) found hypothesis

/-- What is new at a scalar is due to the added rule, at the scalar or somewhere above it. -/
theorem shown_or_gained
    {place : Place} (notTop : place ≠ []) {value : Json} (scalar : value.isScalar = true)
    (shownNow : extended.Shown tree place value) :
    original.Shown tree place value ∨
      ∃ upTo, upTo <+: place ∧ upTo ≠ [] ∧
        (added.project (Place.path upTo)).decision = .included := by
  by_cases untouched :
      ∀ upTo, upTo <+: place → upTo ≠ [] →
        (added.project (Place.path upTo)).decision ≠ .included
  · left
    have same (upTo : Place) (onTheWay : upTo <+: place) (beneath : upTo ≠ []) :
        extended.decisionAt upTo = original.decisionAt upTo :=
      (includesMore.decisionAt_cases upTo).resolve_left fun gained =>
        untouched upTo onTheWay beneath gained.1
    have inclusion : (extended.scopeAt place).hasInclusion = true := by
      rw [scopeAt, includesMore.fieldsMore.scopeBeneath_eq_self, includesMore.inclusionMore]
    rw [shown_scalar_iff scalar] at shownNow ⊢
    obtain ⟨reached, decides⟩ := shownNow
    rw [inclusion, same place List.prefix_rfl notTop] at decides
    refine ⟨fun upTo onTheWay beneath => ?_, decides.imp_right fun left => ?_⟩
    · have unbarred := reached upTo onTheWay beneath
      refine ⟨unbarred.known, ?_⟩
      rw [← same upTo onTheWay beneath]
      exact unbarred.notExcluded
    · cases left.2
  · right
    push Not at untouched
    exact untouched

end IncludesMore

/-- What a field rule that includes decides is included. -/
theorem decision_inclusion_of_decided
    {target path : Path} {recursive : Bool}
    (decided : (project (.field target true recursive) path).isDecided = true) :
    (project (.field target true recursive) path).decision = .included := by
  rw [project] at decided ⊢
  rcases projectField_cases (.field target true recursive) target true recursive path with
    undecided | decides
  · rw [undecided] at decided
    cases decided
  · rw [decides]
    rfl

private theorem hasInclusion_of_compile
    {projection : Projection} {contextPath : Path} {context : NodeId}
    (includes : projection.IncludesField)
    (compiled : compile tree projection contextPath context = .ok projector) :
    projector.hasInclusion = true := by
  obtain ⟨target, recursive, declared⟩ := includes
  obtain ⟨item, itemCompiled⟩ := exists_compile_of_mem_leaves compiled declared
  have listed := (mem_leaves_iff_of_compile compiled).2 ⟨_, declared, itemCompiled⟩
  obtain ⟨_, deep, _, rfl⟩ := compile_field_eq_ok itemCompiled
  rw [← (any_leaves projector).2]
  exact List.any_eq_true.2 ⟨_, listed, rfl⟩

/-- A field rule behind the others that includes its field includes more. -/
theorem includesMore_concat
    {items : List Projector} (fields : (Projector.list items).HasOnlyFields)
    (inclusion : (Projector.list items).hasInclusion = true) (target : Path) (recursive : Bool) :
    IncludesMore (.list items) (.field target true recursive)
      (.list (items ++ [.field target true recursive])) where
  fields := fields
  fieldsMore rule listed := by
    rw [leaves, leavesAll_append] at listed
    rcases List.mem_append.1 listed with before | last
    · exact fields rule before
    · exact ⟨target, true, recursive, List.mem_singleton.1 last⟩
  inclusion := inclusion
  inclusionMore := by
    rw [hasInclusion, anyInclusion_eq_any, List.any_append]
    simp [hasInclusion]
  gained path decided := by
    have included := decision_inclusion_of_decided decided
    refine ⟨included, ?_⟩
    rw [project_list_concat items rfl decided, included]
  kept path notDecided := by
    rw [project, project, projectLast_append, projectLast_singleton, notDecided]
    rfl

private theorem includesMore_of_compile
    {rules : List Projection} {target : Path} {recursive : Bool}
    (fields : (Projection.list rules).HasOnlyFields)
    (includes : (Projection.list rules).IncludesField)
    (compiled : compile tree (.list rules) .root FieldTree.root = .ok original)
    (compiledMore :
      compile tree (.list (rules ++ [.field target true recursive])) .root FieldTree.root =
        .ok extended) :
    ∃ added,
      compile tree (.field target true recursive) .root FieldTree.root = .ok added ∧
        IncludesMore original added extended := by
  have fieldsCompiled := hasOnlyFields_of_compile fields compiled
  have inclusion := hasInclusion_of_compile includes compiled
  obtain ⟨items, itemsCompiled, rfl⟩ := compile_list_eq_ok_iff.1 compiled
  obtain ⟨moreItems, moreCompiled, rfl⟩ := compile_list_eq_ok_iff.1 compiledMore
  obtain ⟨earlier, later, earlierCompiled, lastCompiled, rfl⟩ :=
    compileAll_append_eq_ok_iff.1 moreCompiled
  obtain ⟨added, others, addedCompiled, noOthers, rfl⟩ :=
    compileAll_cons_eq_ok_iff.1 lastCompiled
  cases noOthers
  rw [itemsCompiled] at earlierCompiled
  cases earlierCompiled
  obtain ⟨_, deep, _, rfl⟩ := compile_field_eq_ok addedCompiled
  exact ⟨_, addedCompiled, includesMore_concat fieldsCompiled inclusion _ deep⟩

/-- A list of field rules of which one includes something shows of every document a part of what it
shows with a further inclusion behind its rules, and whatever was shown is still shown where it
stands. A scalar that was not shown before is at or beneath what the new rule includes. What is no
object is projected by neither list. -/
theorem projectDocument_isPart_of_inclusion_added
    {rules : List Projection} {target : Path} {recursive : Bool}
    (fields : (Projection.list rules).HasOnlyFields)
    (includes : (Projection.list rules).IncludesField)
    (compiled : compile tree (.list rules) .root FieldTree.root = .ok original)
    (compiledMore :
      compile tree (.list (rules ++ [.field target true recursive])) .root FieldTree.root =
        .ok extended) :
    (∀ members, ∃ shown more,
      projectDocument original tree (.object members) = .ok shown ∧
        projectDocument extended tree (.object members) = .ok more ∧
        shown.IsPart more ∧
        shown = Json.keep (original.Shown tree) (.object members) [] ∧
        more = Json.keep (extended.Shown tree) (.object members) []) ∧
      (∀ place value, original.Shown tree place value → extended.Shown tree place value) ∧
      (∃ added,
        compile tree (.field target true recursive) .root FieldTree.root = .ok added ∧
          ∀ place value, place ≠ [] → value.isScalar = true →
            extended.Shown tree place value →
              original.Shown tree place value ∨
                ∃ upTo, upTo <+: place ∧ upTo ≠ [] ∧
                  (added.project (Place.path upTo)).decision = .included) ∧
      ∀ document : Json, document.object? = none →
        projectDocument original tree document = .error .notAnObject ∧
          projectDocument extended tree document = .error .notAnObject := by
  obtain ⟨added, addedCompiled, includesMore⟩ :=
    includesMore_of_compile fields includes compiled compiledMore
  have still :
      ∀ place value, original.Shown tree place value → extended.Shown tree place value :=
    fun _ _ shown => includesMore.shown shown
  refine ⟨fun members => ?_, still, ⟨added, addedCompiled, ?_⟩, ?_⟩
  · have part := Json.partAt_keep_of_fewer still (.object members) [] []
    exact ⟨_, _, projectDocument_eq_keep original tree members,
      projectDocument_eq_keep extended tree members, part, rfl, rfl⟩
  · intro place value notTop scalar shownNow
    exact includesMore.shown_or_gained notTop scalar shownNow
  · intro document noObject
    cases document with
    | object members => cases noObject
    | _ => exact ⟨rfl, rfl⟩

/-- Shows the numbers of all lines but the first, which is excluded in a list of its own. -/
def laterNumbers : List Projection :=
  [.including skuOfEveryLine, .list [.excludingSubtree ⟨["lines", "0"]⟩]]

/-- The first line is included again, and so the second one moves down behind it. -/
theorem first_line_comes_back :
    ∃ original extended,
      (Projection.list laterNumbers).HasOnlyFields ∧
        (Projection.list laterNumbers).IncludesField ∧
        compile linesTree (.list laterNumbers) .root FieldTree.root = .ok original ∧
        compile linesTree (.list (laterNumbers ++ [.field ⟨["lines", "0", "sku"]⟩ true false]))
          .root FieldTree.root = .ok extended ∧
        projectDocument original linesTree (linesWith ["A", "B"]) = .ok (linesWith ["B"]) ∧
        projectDocument extended linesTree (linesWith ["A", "B"]) =
          .ok (linesWith ["A", "B"]) ∧
        (linesWith ["B"]).IsPart (linesWith ["A", "B"]) := by
  have fields : (Projection.list laterNumbers).HasOnlyFields := by
    intro rule listed
    rcases List.mem_cons.1 listed with rfl | last
    · exact ⟨_, _, _, rfl⟩
    · exact ⟨_, _, _, List.mem_singleton.1 last⟩
  have includes : (Projection.list laterNumbers).IncludesField :=
    ⟨skuOfEveryLine, false, List.mem_cons_self⟩
  obtain ⟨original, compiled⟩ :
      ∃ original,
        compile linesTree (.list laterNumbers) .root FieldTree.root = .ok original :=
    ⟨_, rfl⟩
  obtain ⟨extended, compiledMore⟩ :
      ∃ extended,
        compile linesTree (.list (laterNumbers ++ [.field ⟨["lines", "0", "sku"]⟩ true false]))
          .root FieldTree.root = .ok extended :=
    ⟨_, rfl⟩
  have before :
      projectDocument original linesTree (linesWith ["A", "B"]) = .ok (linesWith ["B"]) := by
    cases compiled
    rfl
  have after :
      projectDocument extended linesTree (linesWith ["A", "B"]) =
        .ok (linesWith ["A", "B"]) := by
    cases compiledMore
    rfl
  obtain ⟨shown, more, shownEq, moreEq, part, _⟩ :=
    (projectDocument_isPart_of_inclusion_added fields includes compiled compiledMore).1
      [("lines", .array (["A", "B"].map fun number => .object [("sku", .string number)]))]
  cases before.symm.trans shownEq
  cases after.symm.trans moreEq
  exact ⟨original, extended, fields, includes, compiled, compiledMore, before, after, part⟩

end Schemata.Projector

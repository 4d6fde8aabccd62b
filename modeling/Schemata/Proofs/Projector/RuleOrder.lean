import Schemata.Proofs.Projector.Alike
import Schemata.Proofs.Projector.LastExclusion

/-!
# The order of rules that say the same

The last rule of a list wins, so that the order of its rules matters in general. Where all rules
include, or all exclude, and no range has a projection of its own, it does not: a list decides a
path if any of its rules does, and which one it is shows only in the rule that the answer names. Nor
does it matter how often a rule is repeated.
-/
namespace Schemata

/-- A rule with a flag, and with nothing of its own for the elements of an array. -/
inductive Projection.IsPlain (included : Bool) : Projection → Prop where
  | field (target : Path) (recursive : Bool) : IsPlain included (.field target included recursive)
  | range (target : Path) (first last : UInt64) :
      IsPlain included (.range target included first last none)

namespace Projector

variable {tree : FieldTree} {contextPath : Path} {context : NodeId} {included : Bool}

/-- Wherever a projector decides, it gives one answer and goes on deciding itself. -/
def AnswersOnly (included : Bool) (projector : Projector) : Prop :=
  ∀ path,
    project projector path = .undecided ∨
      ∃ rule, project projector path = .decided (.ofFlag included) rule

private theorem answersOnly_of_compile
    {rule : Projection} {item : Projector} (plain : rule.IsPlain included)
    (compiled : compile tree rule contextPath context = .ok item) :
    item.AnswersOnly included := by
  intro path
  cases plain with
  | field target recursive =>
      obtain ⟨_, deep, _, rfl⟩ := compile_field_eq_ok compiled
      rw [project]
      exact (projectField_cases _ _ included deep path).imp_right fun decides => ⟨_, decides⟩
  | range target first last =>
      obtain ⟨_, nested, _, _, nothing, rfl⟩ := compile_range_eq_ok_iff.1 compiled
      cases nothing
      rw [project]
      exact (projectRange_cases _ _ included first last path).imp_right fun decides => ⟨_, decides⟩

theorem AnswersOnly.project_of_decided
    {projector : Projector} (answers : projector.AnswersOnly included) {path : Path}
    (decided : (project projector path).isDecided = true) :
    ∃ rule, project projector path = .decided (.ofFlag included) rule := by
  refine (answers path).resolve_left fun undecided => ?_
  rw [undecided] at decided
  cases decided

private theorem answersOnly_list
    {items : List Projector} (answers : ∀ item ∈ items, item.AnswersOnly included) :
    (Projector.list items).AnswersOnly included := by
  intro path
  rw [project]
  induction items with
  | nil => exact Or.inl rfl
  | cons item rest hypothesis =>
      obtain ⟨itemAnswers, restAnswers⟩ := List.forall_mem_cons.1 answers
      rw [projectLast]
      split
      · exact hypothesis restAnswers
      · exact itemAnswers path

/-- Lists of the same projectors that give one answer are alike. -/
theorem alike_of_same_items
    {items others : List Projector} (answers : ∀ item ∈ items, item.AnswersOnly included)
    (same : ∀ item, item ∈ others ↔ item ∈ items) :
    Alike (.list items) (.list others) := by
  have othersAnswer : ∀ item ∈ others, item.AnswersOnly included :=
    fun item listed => answers item ((same item).1 listed)
  have sameAny (question : Projector → Bool) : items.any question = others.any question := by
    rw [Bool.eq_iff_iff, List.any_eq_true, List.any_eq_true]
    simp only [same]
  refine ⟨?_, ?_, fun path => ?_⟩
  · rw [exactMatch, exactMatch, anyExactMatch_eq_any, anyExactMatch_eq_any, sameAny]
  · rw [hasInclusion, hasInclusion, anyInclusion_eq_any, anyInclusion_eq_any, sameAny]
  · have sameDecided :
        (project (.list others) path).isDecided = (project (.list items) path).isDecided := by
      rw [project, project, isDecided_projectLast_eq_any, isDecided_projectLast_eq_any, sameAny]
    cases decided : (project (.list items) path).isDecided with
    | true =>
        rw [decided] at sameDecided
        obtain ⟨rule, decides⟩ := (answersOnly_list answers).project_of_decided decided
        obtain ⟨other, otherDecides⟩ :=
          (answersOnly_list othersAnswer).project_of_decided sameDecided
        rw [decides, otherDecides]
        exact ⟨rfl, .none⟩
    | false =>
        rw [decided] at sameDecided
        rw [project_eq_undecided decided, project_eq_undecided sameDecided]
        exact .refl _

/-- Two lists with the same rules, in any order and repeated at will, compile at the same nodes if
all rules include or all exclude and no range has a projection of its own. They then decide alike
about every path, and show the same of every document. -/
theorem projectDocument_eq_of_same_rules
    {rules others : List Projection} (plain : ∀ rule ∈ rules, rule.IsPlain included)
    (same : ∀ rule, rule ∈ others ↔ rule ∈ rules) :
    ((∃ other, compile tree (.list others) contextPath context = .ok other) ↔
        ∃ projector, compile tree (.list rules) contextPath context = .ok projector) ∧
      ∀ projector other,
        compile tree (.list rules) contextPath context = .ok projector →
        compile tree (.list others) contextPath context = .ok other →
        (∀ path, (project other path).decision = (project projector path).decision) ∧
          ∀ document,
            projectDocument other tree document = projectDocument projector tree document := by
  constructor
  · have exists_iff (listed : List Projection) :
        (∃ projector, compile tree (.list listed) contextPath context = .ok projector) ↔
          ∀ rule ∈ listed, ∃ item, compile tree rule contextPath context = .ok item := by
      simp only [compile_list_eq_ok_iff, ← exists_compileAll_iff]
      exact ⟨fun ⟨_, items, success, _⟩ => ⟨items, success⟩,
        fun ⟨items, success⟩ => ⟨_, items, success, rfl⟩⟩
    rw [exists_iff, exists_iff]
    simp only [same]
  · intro projector other compiled otherCompiled
    obtain ⟨items, success, rfl⟩ := compile_list_eq_ok_iff.1 compiled
    obtain ⟨otherItems, otherSuccess, rfl⟩ := compile_list_eq_ok_iff.1 otherCompiled
    have answers : ∀ item ∈ items, item.AnswersOnly included := by
      intro item listed
      obtain ⟨rule, declared, itemCompiled⟩ := (mem_iff_of_compileAll success).1 listed
      exact answersOnly_of_compile (plain rule declared) itemCompiled
    have sameItems : ∀ item, item ∈ otherItems ↔ item ∈ items := by
      intro item
      rw [mem_iff_of_compileAll success, mem_iff_of_compileAll otherSuccess]
      simp only [same]
    have alike := alike_of_same_items answers sameItems
    exact ⟨fun path => ((alike.answers path).decision).symm,
      fun document => (alike.projectDocument_eq tree document).symm⟩

def firstTwoLines : List Projection :=
  [.range ⟨["lines"]⟩ true 1 1 none, .including ⟨["lines", "0", "sku"]⟩]

/-- The rules of the first two lines the other way round, one of them twice. -/
theorem first_two_lines_either_way :
    ∃ projector other,
      compile linesTree (.list firstTwoLines) .root FieldTree.root = .ok projector ∧
        compile linesTree (.list (firstTwoLines.reverse ++ [.including ⟨["lines", "0", "sku"]⟩]))
          .root FieldTree.root = .ok other ∧
        projectDocument projector linesTree (linesWith ["A", "B", "C"]) =
          .ok (linesWith ["A", "B"]) ∧
        projectDocument other linesTree (linesWith ["A", "B", "C"]) =
          .ok (linesWith ["A", "B"]) := by
  have plain : ∀ rule ∈ firstTwoLines, rule.IsPlain true := by
    intro rule listed
    rcases List.mem_cons.1 listed with rfl | last
    · exact .range _ _ _
    · cases List.mem_singleton.1 last
      exact .field _ _
  have same :
      ∀ rule,
        rule ∈ firstTwoLines.reverse ++ [.including ⟨["lines", "0", "sku"]⟩] ↔
          rule ∈ firstTwoLines := by
    intro rule
    rw [List.mem_append, List.mem_reverse, List.mem_singleton, or_iff_left_of_imp]
    rintro rfl
    exact List.mem_cons_of_mem _ List.mem_cons_self
  obtain ⟨projector, compiled⟩ :
      ∃ projector,
        compile linesTree (.list firstTwoLines) .root FieldTree.root = .ok projector :=
    ⟨_, rfl⟩
  have settled :=
    @projectDocument_eq_of_same_rules linesTree .root FieldTree.root true _ _ plain same
  obtain ⟨other, otherCompiled⟩ := settled.1.2 ⟨projector, compiled⟩
  have shown :
      projectDocument projector linesTree (linesWith ["A", "B", "C"]) =
        .ok (linesWith ["A", "B"]) := by
    cases compiled
    rfl
  have otherShown :=
    (settled.2 projector other compiled otherCompiled).2 (linesWith ["A", "B", "C"])
  exact ⟨projector, other, compiled, otherCompiled, shown, otherShown.trans shown⟩

end Projector
end Schemata

import Schemata.Proofs.Projector.AddedExclusion

/-!
# When a projector includes

Whether a projector includes anything is told by its rules alone, and that decides what becomes of
fields without a rule. It is also told by one answer: a projector includes something exactly if it
includes the document itself.
-/
namespace Schemata.Projector

variable {tree : FieldTree} {contextPath : Path} {context : NodeId}

private theorem not_isRoot_append
    {target : Path} (notRoot : target.isRoot = false) :
    (contextPath ++ target).isRoot = false := by
  rw [Path.isRoot_append, notRoot, Bool.and_false]

/-- Every field lies beneath the document, so that an inclusion decides the document and an exclusion
does not. -/
theorem decision_root_field
    {target : Path} (notRoot : target.isRoot = false) (included recursive : Bool) :
    (project (.field target included recursive) .root).decision =
      if included then .included else .undecided := by
  have notFit : Path.root.fits target = false := by
    rw [← Bool.not_eq_true, Path.root_fits_iff, notRoot]
    exact Bool.false_ne_true
  have leads : Path.root.leadsTo target = true := rfl
  rw [project, projectField, if_pos leads, notFit]
  cases included <;> rfl

private theorem decision_root_range
    (target : Path) (included : Bool) (first last : UInt64) (nested : Option Projector) :
    (project (.range target included first last nested) .root).decision =
      if included then .included else .undecided := by
  cases included <;> rfl

/-- The later part of a list decides about the document if it includes anything, and leaves it to the
earlier part otherwise. -/
theorem decision_root_cons
    {item : Projector} {rest : List Projector}
    (first :
      (project item .root).decision = if item.hasInclusion then .included else .undecided)
    (later :
      (projectLast rest .root).decision =
        if anyInclusion rest then .included else .undecided) :
    (projectLast (item :: rest) .root).decision =
      if anyInclusion (item :: rest) then .included else .undecided := by
  simp only [projectLast, anyInclusion, Projected.isDecided]
  by_cases laterIncludes : anyInclusion rest = true
  · rw [if_pos laterIncludes] at later
    simp [later, laterIncludes, Decision.isDecided]
  · rw [if_neg laterIncludes] at later
    simp [later, first, laterIncludes, Decision.isDecided]

mutual

private theorem decision_root_of_compile :
    ∀ {projection : Projection} {projector : Projector},
      compile tree projection contextPath context = .ok projector →
        (project projector .root).decision =
          if projector.hasInclusion then .included else .undecided
  | .field target included recursive, projector, compiled => by
      obtain ⟨notRoot, deep, _, rfl⟩ := compile_field_eq_ok compiled
      exact decision_root_field (not_isRoot_append notRoot) included deep
  | .range target included first last project, projector, compiled => by
      obtain ⟨nested, rfl⟩ := compile_range_eq_ok compiled
      exact decision_root_range _ included first last nested
  | .list rules, projector, compiled => by
      obtain ⟨items, success, rfl⟩ := compile_list_eq_ok_iff.1 compiled
      rw [project, hasInclusion]
      exact decision_root_of_compileAll success

theorem decision_root_of_compileAll :
    ∀ {rules : List Projection} {items : List Projector},
      compileAll tree rules contextPath context = .ok items →
        (projectLast items .root).decision =
          if anyInclusion items then .included else .undecided
  | [], items, compiled => by
      cases compiled
      rfl
  | rule :: rest, items, compiled => by
      obtain ⟨item, others, first, later, rfl⟩ := compileAll_cons_eq_ok_iff.1 compiled
      exact decision_root_cons (decision_root_of_compile first)
        (decision_root_of_compileAll later)

end

/-- Whatever the context is, a compiled projector has an inclusion among its rules exactly if it
includes some path. It then includes the document itself, and otherwise leaves the document
undecided; it never excludes the document. -/
theorem hasInclusion_iff_exists_included
    {projection : Projection} {projector : Projector}
    (compiled : compile tree projection contextPath context = .ok projector) :
    (projector.hasInclusion = true ↔ ∃ path, (project projector path).decision = .included) ∧
      (project projector .root).decision =
        if projector.hasInclusion then .included else .undecided := by
  have atRoot := decision_root_of_compile compiled
  refine ⟨⟨fun inclusion => ⟨.root, ?_⟩, ?_⟩, atRoot⟩
  · rw [atRoot, if_pos inclusion]
  · rintro ⟨path, included⟩
    by_contra noInclusion
    exact project_ne_included (Bool.eq_false_iff.2 noInclusion) path included

/-- Excludes the first two lines, with a projection of their own that nothing is handed on to. -/
def withoutFirstLines : Projection :=
  .list [
    .range ⟨["lines"]⟩ false 0 1 (some (.including ⟨["sku"]⟩)),
    .excluding ⟨["lines", "*", "sku"]⟩]

/-- The inclusion inside the excluded range counts for nothing: no path is included. -/
theorem withoutFirstLines_includes_nothing :
    ∃ projector,
      compile linesTree withoutFirstLines .root FieldTree.root = .ok projector ∧
        projector.hasInclusion = false ∧
        (¬ ∃ path, (project projector path).decision = .included) ∧
        (project projector .root).decision = .undecided := by
  obtain ⟨projector, compiled⟩ :
      ∃ projector,
        compile linesTree withoutFirstLines .root FieldTree.root = .ok projector :=
    ⟨_, rfl⟩
  have noInclusion : projector.hasInclusion = false := by
    cases compiled
    rfl
  obtain ⟨includes_iff, atRoot⟩ := hasInclusion_iff_exists_included compiled
  rw [noInclusion] at includes_iff atRoot
  exact ⟨projector, compiled, noInclusion, fun some => Bool.false_ne_true (includes_iff.2 some),
    atRoot⟩

end Schemata.Projector

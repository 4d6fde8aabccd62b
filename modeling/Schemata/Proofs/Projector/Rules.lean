import Schemata.Projector.Compile
import Schemata.Proofs.Attempt
import Schemata.Proofs.Path

/-!
# Compiled rules

What a compiled projection is made of, and which of the rules of a list decides a path.
-/
namespace Schemata.Projector

variable {tree : FieldTree} {contextPath : Path} {context : NodeId}

/-- A rule names some nodes, and is not the root. -/
theorem targets_eq_ok_iff
    {target : Path} {ids : List NodeId} :
    targets tree target contextPath context = .ok ids ↔
      target.isRoot = false ∧ tree.nodesMatching context contextPath target = .ok ids ∧
        ids.isEmpty = false := by
  unfold targets
  split
  · next atRoot =>
      constructor
      · nofun
      · rintro ⟨notRoot, _⟩
        exact absurd atRoot (Bool.eq_false_iff.1 notRoot)
  · next notRoot =>
      rw [Bool.not_eq_true] at notRoot
      simp only [notRoot, true_and, bind_eq_ok_iff]
      constructor
      · rintro ⟨found, listed, checked⟩
        split at checked
        · cases checked
        · next some =>
            cases checked
            exact ⟨listed, Bool.eq_false_iff.2 some⟩
      · rintro ⟨listed, some⟩
        refine ⟨ids, listed, ?_⟩
        rw [some]
        rfl

theorem named_of_targets
    {target : Path} {ids : List NodeId}
    (named : targets tree target contextPath context = .ok ids) :
    target.isRoot = false ∧ tree.nodesMatching context contextPath target = .ok ids := by
  obtain ⟨notRoot, listed, _⟩ := targets_eq_ok_iff.1 named
  exact ⟨notRoot, listed⟩

/-- A field rule compiles to a field rule with an absolute target. It is recursive also if all nodes
that it names are arrays of leaves. -/
theorem exists_targets_of_compile_field
    {target : Path} {included recursive : Bool} {compiled : Projector}
    (success :
      compile tree (.field target included recursive) contextPath context = .ok compiled) :
    ∃ ids,
      targets tree target contextPath context = .ok ids ∧
        compiled =
          .field (contextPath ++ target) included (recursive || ids.all tree.isScalarArray) := by
  rw [compile, compileField, bind_eq_ok_iff] at success
  obtain ⟨ids, named, same⟩ := success
  cases same
  exact ⟨ids, named, rfl⟩

/-- A field rule compiles to a field rule with an absolute target, which may only become
recursive. -/
theorem compile_field_eq_ok
    {target : Path} {included recursive : Bool} {compiled : Projector}
    (success :
      compile tree (.field target included recursive) contextPath context = .ok compiled) :
    target.isRoot = false ∧
      ∃ deep, (recursive = true → deep = true) ∧
        compiled = .field (contextPath ++ target) included deep := by
  obtain ⟨ids, named, same⟩ := exists_targets_of_compile_field success
  refine ⟨(named_of_targets named).1, _, ?_, same⟩
  intro declared
  rw [declared, Bool.true_or]

/-- A range rule compiles to a range rule with an absolute target if it names one array, its bounds are
in order, and what is nested compiles at the elements of the array. -/
theorem compile_range_eq_ok_iff
    {target : Path} {included : Bool} {first last : UInt64} {project : Option Projection}
    {compiled : Projector} :
    compile tree (.range target included first last project) contextPath context =
        .ok compiled ↔
      ∃ element nested,
        rangeElement tree target contextPath context = .ok element ∧
          checkBounds (contextPath ++ target) first last = .ok () ∧
          project.mapM (fun rule =>
              compile tree rule ((contextPath ++ target).child Path.wildcard) element) =
            .ok nested ∧
          compiled = .range (contextPath ++ target) included first last nested := by
  cases project with
  | none =>
      rw [compile, bind_eq_ok_iff]
      constructor
      · rintro ⟨element, found, checked⟩
        obtain ⟨bounds, same⟩ := check_bind_eq_ok_iff.1 checked
        cases same
        exact ⟨element, none, found, bounds, rfl, rfl⟩
      · rintro ⟨element, nested, found, bounds, nothing, rfl⟩
        cases nothing
        exact ⟨element, found, check_bind_eq_ok_iff.2 ⟨bounds, rfl⟩⟩
  | some rule =>
      rw [compile, bind_eq_ok_iff]
      constructor
      · rintro ⟨element, found, checked⟩
        obtain ⟨bounds, nestedCompiled⟩ := check_bind_eq_ok_iff.1 checked
        obtain ⟨nested, success, same⟩ := bind_eq_ok_iff.1 nestedCompiled
        cases same
        exact ⟨element, some nested, found, bounds, bind_eq_ok_iff.2 ⟨nested, success, rfl⟩, rfl⟩
      · rintro ⟨element, nested, found, bounds, nestedCompiled, rfl⟩
        obtain ⟨inner, success, same⟩ := bind_eq_ok_iff.1 nestedCompiled
        cases same
        exact ⟨element, found,
          check_bind_eq_ok_iff.2 ⟨bounds, bind_eq_ok_iff.2 ⟨inner, success, rfl⟩⟩⟩

theorem compile_range_eq_ok
    {target : Path} {included : Bool} {first last : UInt64} {project : Option Projection}
    {compiled : Projector}
    (success :
      compile tree (.range target included first last project) contextPath context =
        .ok compiled) :
    ∃ nested, compiled = .range (contextPath ++ target) included first last nested := by
  obtain ⟨_, nested, _, _, _, same⟩ := compile_range_eq_ok_iff.1 success
  exact ⟨nested, same⟩

theorem compile_list_eq_ok_iff
    {rules : List Projection} {compiled : Projector} :
    compile tree (.list rules) contextPath context = .ok compiled ↔
      ∃ items, compileAll tree rules contextPath context = .ok items ∧
        compiled = .list items := by
  rw [compile, map_eq_pure_bind, bind_eq_ok_iff]
  constructor
  · rintro ⟨items, success, same⟩
    cases same
    exact ⟨items, success, rfl⟩
  · rintro ⟨items, success, rfl⟩
    exact ⟨items, success, rfl⟩

theorem compileAll_cons_eq_ok_iff
    {rule : Projection} {rest : List Projection} {items : List Projector} :
    compileAll tree (rule :: rest) contextPath context = .ok items ↔
      ∃ item others,
        compile tree rule contextPath context = .ok item ∧
          compileAll tree rest contextPath context = .ok others ∧
          items = item :: others := by
  rw [compileAll, bind_eq_ok_iff]
  constructor
  · rintro ⟨item, first, success⟩
    obtain ⟨others, second, same⟩ := bind_eq_ok_iff.1 success
    cases same
    exact ⟨item, others, first, second, rfl⟩
  · rintro ⟨item, others, first, second, rfl⟩
    exact ⟨item, first, bind_eq_ok_iff.2 ⟨others, second, rfl⟩⟩

theorem compileAll_append_eq_ok_iff
    {front back : List Projection} {items : List Projector} :
    compileAll tree (front ++ back) contextPath context = .ok items ↔
      ∃ earlier later,
        compileAll tree front contextPath context = .ok earlier ∧
          compileAll tree back contextPath context = .ok later ∧
          items = earlier ++ later := by
  induction front generalizing items with
  | nil => simp [compileAll]
  | cons rule rest hypothesis =>
      rw [List.cons_append, compileAll_cons_eq_ok_iff]
      constructor
      · rintro ⟨item, others, first, second, rfl⟩
        obtain ⟨earlier, later, restCompiled, backCompiled, rfl⟩ := hypothesis.1 second
        have frontCompiled :=
          compileAll_cons_eq_ok_iff.2 ⟨item, earlier, first, restCompiled, rfl⟩
        exact ⟨item :: earlier, later, frontCompiled, backCompiled, rfl⟩
      · rintro ⟨earlier, later, frontCompiled, backCompiled, rfl⟩
        obtain ⟨item, others, first, restCompiled, rfl⟩ :=
          compileAll_cons_eq_ok_iff.1 frontCompiled
        have second := hypothesis.2 ⟨others, later, restCompiled, backCompiled, rfl⟩
        exact ⟨item, others ++ later, first, second, rfl⟩

theorem exists_last_of_compile
    {rules : List Projection} {rule : Projection} {compiled : Projector}
    (success : compile tree (.list (rules ++ [rule])) contextPath context = .ok compiled) :
    ∃ earlier last,
      compile tree rule contextPath context = .ok last ∧ compiled = .list (earlier ++ [last]) := by
  obtain ⟨items, itemsCompiled, rfl⟩ := compile_list_eq_ok_iff.1 success
  obtain ⟨earlier, later, _, laterCompiled, rfl⟩ := compileAll_append_eq_ok_iff.1 itemsCompiled
  obtain ⟨last, others, lastCompiled, noOthers, rfl⟩ := compileAll_cons_eq_ok_iff.1 laterCompiled
  cases noOthers
  exact ⟨earlier, last, lastCompiled, rfl⟩

theorem exists_compileAll_iff
    {rules : List Projection} :
    (∃ items, compileAll tree rules contextPath context = .ok items) ↔
      ∀ rule ∈ rules, ∃ item, compile tree rule contextPath context = .ok item := by
  induction rules with
  | nil => exact ⟨fun _ rule listed => absurd listed List.not_mem_nil, fun _ => ⟨[], rfl⟩⟩
  | cons rule rest hypothesis =>
      rw [List.forall_mem_cons, ← hypothesis]
      constructor
      · rintro ⟨items, success⟩
        obtain ⟨item, others, first, second, rfl⟩ := compileAll_cons_eq_ok_iff.1 success
        exact ⟨⟨item, first⟩, others, second⟩
      · rintro ⟨⟨item, first⟩, others, second⟩
        exact ⟨item :: others, compileAll_cons_eq_ok_iff.2 ⟨item, others, first, second, rfl⟩⟩

/-- The items of a compiled list are what its rules compile to. -/
theorem mem_iff_of_compileAll
    {rules : List Projection} {items : List Projector}
    (success : compileAll tree rules contextPath context = .ok items) {item : Projector} :
    item ∈ items ↔ ∃ rule ∈ rules, compile tree rule contextPath context = .ok item := by
  induction rules generalizing items with
  | nil =>
      cases success
      simp
  | cons rule rest hypothesis =>
      obtain ⟨first, others, compiled, second, rfl⟩ := compileAll_cons_eq_ok_iff.1 success
      simp [hypothesis second, compiled, eq_comm]

/-- An answer with a flag is one that decides. -/
theorem isDecided_ofFlag
    (included : Bool) (nested deciding : Option Projector) :
    (Projected.mk (.ofFlag included) nested deciding).isDecided ≠ false := by
  cases included <;> nofun

/-- A field rule gives one answer wherever it decides. -/
theorem projectField_cases
    (rule : Projector) (target : Path) (included recursive : Bool) (path : Path) :
    projectField rule target included recursive path = .undecided ∨
      projectField rule target included recursive path = .decided (.ofFlag included) rule := by
  unfold projectField
  split
  · split
    · exact Or.inr rfl
    · exact Or.inl rfl
  · split
    · exact Or.inr rfl
    · exact Or.inl rfl

/-- So does a range rule that has no projector of its own for the elements. -/
theorem projectRange_cases
    (rule : Projector) (target : Path) (included : Bool) (first last : UInt64) (path : Path) :
    projectRange rule target included first last none path = .undecided ∨
      projectRange rule target included first last none path =
        .decided (.ofFlag included) rule := by
  unfold projectRange
  split
  · cases included with
    | true => exact Or.inr rfl
    | false => exact Or.inl rfl
  · split
    · right
      split
      · rw [ite_self]
        rfl
      · rfl
    · exact Or.inl rfl

private theorem projectField_eq_undecided
    {rule : Projector} {target path : Path} {included recursive : Bool}
    (notDecided : (projectField rule target included recursive path).isDecided = false) :
    projectField rule target included recursive path = .undecided := by
  rcases projectField_cases rule target included recursive path with same | decides
  · exact same
  · rw [decides] at notDecided
    exact (isDecided_ofFlag _ _ _ notDecided).elim

private theorem projectRange_eq_undecided
    {rule : Projector} {target path : Path} {included : Bool} {first last : UInt64}
    {handed : Option Projector}
    (notDecided :
      (projectRange rule target included first last handed path).isDecided = false) :
    projectRange rule target included first last handed path = .undecided := by
  unfold projectRange at notDecided ⊢
  split at notDecided
  · next leads =>
      rw [if_pos leads]
      split at notDecided
      · cases notDecided
      · next excludes => rw [if_neg excludes]
  · next beyond =>
      rw [if_neg beyond]
      split at notDecided
      · next selected =>
          rw [if_pos selected]
          split at notDecided
          · exact (isDecided_ofFlag _ _ _ notDecided).elim
          · next beneathElement =>
              rw [if_neg beneathElement]
              split at notDecided
              · exact (isDecided_ofFlag _ _ _ notDecided).elim
              · next handsOn => rw [if_neg handsOn]
      · next outside => rw [if_neg outside]

mutual

/-- An answer that decides nothing hands nothing on and names no rule. -/
theorem project_eq_undecided :
    ∀ {projector : Projector} {path : Path},
      (project projector path).isDecided = false → project projector path = .undecided
  | .field target included recursive, path, notDecided => by
      rw [project] at notDecided ⊢
      exact projectField_eq_undecided notDecided
  | .range target included first last nested, path, notDecided => by
      rw [project] at notDecided ⊢
      exact projectRange_eq_undecided notDecided
  | .list items, path, notDecided => by
      rw [project] at notDecided ⊢
      exact projectLast_eq_undecided notDecided

private theorem projectLast_eq_undecided :
    ∀ {items : List Projector} {path : Path},
      (projectLast items path).isDecided = false → projectLast items path = .undecided
  | [], path, _ => rfl
  | item :: rest, path, notDecided => by
      simp only [projectLast] at notDecided ⊢
      split at notDecided
      · next later =>
          rw [later] at notDecided
          cases notDecided
      · next earlier =>
          rw [if_neg earlier]
          exact project_eq_undecided notDecided

end

theorem projectLast_singleton (item : Projector) (path : Path) :
    projectLast [item] path = project item path := by
  simp [projectLast, Projected.undecided, Projected.isDecided, Decision.isDecided]

/-- A list decides what any of its rules does. -/
theorem isDecided_projectLast_eq_any (items : List Projector) (path : Path) :
    (projectLast items path).isDecided = items.any fun item => (project item path).isDecided := by
  induction items with
  | nil => rfl
  | cons item rest hypothesis =>
      rw [projectLast, List.any_cons, ← hypothesis]
      cases later : (projectLast rest path).isDecided with
      | true => rw [if_pos rfl, later, Bool.or_true]
      | false => rw [if_neg Bool.false_ne_true, Bool.or_false]

/-- Of the two parts of a list the later one decides a path if any of its rules does. -/
theorem projectLast_append (front back : List Projector) (path : Path) :
    projectLast (front ++ back) path =
      if (projectLast back path).isDecided then projectLast back path
      else projectLast front path := by
  induction front with
  | nil =>
      rw [List.nil_append, projectLast]
      split
      · rfl
      · next notDecided =>
          exact projectLast_eq_undecided (Bool.eq_false_iff.2 notDecided)
  | cons item rest hypothesis =>
      rw [List.cons_append, projectLast, hypothesis]
      by_cases decided : (projectLast back path).isDecided
      · simp only [if_pos decided]
      · simp only [if_neg decided, projectLast]

theorem project_list_concat
    (earlier : List Projector) {last : Projector} {path : Path} {answer : Projected}
    (answers : project last path = answer) (decided : answer.isDecided = true) :
    project (.list (earlier ++ [last])) path = answer := by
  rw [project, projectLast_append, projectLast_singleton, answers, if_pos decided]

theorem project_inclusion
    {target path : Path} (recursive : Bool) (leads : path.leadsTo target = true) :
    project (.field target true recursive) path =
      .decided .included (.field target true recursive) := by
  simp [project, projectField, leads, Decision.ofFlag]

theorem project_exclusion
    {target path : Path} (recursive : Bool) (fit : path.fits target = true) :
    project (.field target false recursive) path =
      .decided .excluded (.field target false recursive) := by
  have leads := Path.leadsTo_of_fits fit
  simp [project, projectField, leads, fit, Decision.ofFlag]

end Schemata.Projector

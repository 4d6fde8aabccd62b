import Mathlib.Data.List.Forall2
import Mathlib.Data.List.Induction
import Schemata.FieldTree.Growth
import Schemata.Proofs.Projector.Alike
import Schemata.Proofs.Projector.Scope

/-!
# Lists in lists

A list decides a path as the last of its rules that decides the path, and it does not matter how the
rules are grouped in lists. Where a list is replaced by its rules in one row, the projection compiles
to a projector that shows the same, or fails with the same error.
-/
namespace Schemata

/-! ## Rules in a row -/

namespace Projection

mutual

/-- The rules of a projection that are no lists themselves, in the order of declaration. -/
def leaves : Projection → List Projection
  | .list rules => leavesAll rules
  | rule => [rule]

def leavesAll : List Projection → List Projection
  | [] => []
  | rule :: rest => leaves rule ++ leavesAll rest

end

theorem mem_leavesAll {rule item : Projection} {rules : List Projection} (listed : item ∈ rules)
    (inItem : rule ∈ item.leaves) : rule ∈ leavesAll rules := by
  induction listed with
  | head rest => exact List.mem_append_left _ inItem
  | tail other _ hypothesis => exact List.mem_append_right _ hypothesis

/-- The projection is made of field rules only, in lists of any depth. -/
def HasOnlyFields (projection : Projection) : Prop :=
  ∀ rule ∈ projection.leaves, ∃ target included recursive,
    rule = .field target included recursive

/-- The second projection is the first one with some of its lists, at any depth, replaced by their
rules in a row. -/
inductive Flattens : Projection → Projection → Prop
  | same (projection : Projection) :
      Flattens projection projection
  | list (rules : List Projection) :
      Flattens (.list rules) (.list (leavesAll rules))
  | inList {rule other : Projection} (front back : List Projection) :
      Flattens rule other →
      Flattens (.list (front ++ rule :: back)) (.list (front ++ other :: back))
  | inRange {project other : Projection} (target : Path) (included : Bool)
      (first last : UInt64) :
      Flattens project other →
      Flattens (.range target included first last (some project))
        (.range target included first last (some other))
  | trans {projection middle flattened : Projection} :
      Flattens projection middle →
      Flattens middle flattened →
      Flattens projection flattened

end Projection

namespace Projector

mutual

/-- The rules of a projector that are no lists themselves, in the order of declaration. -/
def leaves : Projector → List Projector
  | .list items => leavesAll items
  | rule => [rule]

def leavesAll : List Projector → List Projector
  | [] => []
  | item :: rest => leaves item ++ leavesAll rest

end

theorem leavesAll_append (front back : List Projector) :
    leavesAll (front ++ back) = leavesAll front ++ leavesAll back := by
  induction front with
  | nil => rfl
  | cons item rest hypothesis =>
      rw [List.cons_append, leavesAll, leavesAll, hypothesis, List.append_assoc]

/-- The answer of the last of some rules that decides a path, if one does. -/
def lastAnswer (rules : List Projector) (path : Path) : Projected :=
  match rules.reverse.find? fun rule => (project rule path).isDecided with
  | some rule => { project rule path with deciding := some rule }
  | none => .undecided

mutual

private theorem projectLast_leaves :
    ∀ (projector : Projector) (path : Path),
      projectLast projector.leaves path = project projector path
  | .field _ _ _, path => projectLast_singleton _ path
  | .range _ _ _ _ _, path => projectLast_singleton _ path
  | .list items, path => by
      rw [leaves, project]
      exact projectLast_leavesAll items path

private theorem projectLast_leavesAll :
    ∀ (items : List Projector) (path : Path),
      projectLast (leavesAll items) path = projectLast items path
  | [], _ => rfl
  | item :: rest, path => by
      rw [leavesAll, projectLast_append, projectLast_leavesAll rest path,
        projectLast_leaves item path, projectLast]

end

/-- A rule that is no list and decides a path names itself. -/
theorem deciding_field
    {target : Path} {included recursive : Bool} {path : Path}
    (decided : (project (.field target included recursive) path).isDecided = true) :
    (project (.field target included recursive) path).deciding =
      some (.field target included recursive) := by
  rw [project, projectField] at decided ⊢
  split at decided
  · next leads =>
      rw [if_pos leads]
      split at decided
      · next decides => rw [if_pos decides]; rfl
      · cases decided
  · next elsewhere =>
      rw [if_neg elsewhere]
      split at decided
      · next decides => rw [if_pos decides]; rfl
      · cases decided

private theorem deciding_range
    {target : Path} {included : Bool} {first last : UInt64} {nested : Option Projector}
    {path : Path}
    (decided : (project (.range target included first last nested) path).isDecided = true) :
    (project (.range target included first last nested) path).deciding =
      some (.range target included first last nested) := by
  rw [project, projectRange] at decided ⊢
  split at decided
  · next leads =>
      rw [if_pos leads]
      split at decided
      · next decides => rw [if_pos decides]; rfl
      · cases decided
  · next beyond =>
      rw [if_neg beyond]
      split at decided
      · next selected =>
          rw [if_pos selected]
          split at decided
          · next element => rw [if_pos element]
          · next beneath =>
              rw [if_neg beneath]
              split at decided
              · next whole => rw [if_pos whole]; rfl
              · cases decided
      · cases decided

mutual

private theorem deciding_of_mem_leaves :
    ∀ {projector rule : Projector} {path : Path},
      rule ∈ projector.leaves → (project rule path).isDecided = true →
        (project rule path).deciding = some rule
  | .field _ _ _, rule, path, listed, decided => by
      rw [List.mem_singleton.1 listed] at decided ⊢
      exact deciding_field decided
  | .range _ _ _ _ _, rule, path, listed, decided => by
      rw [List.mem_singleton.1 listed] at decided ⊢
      exact deciding_range decided
  | .list items, rule, path, listed, decided => by
      rw [leaves] at listed
      exact deciding_of_mem_leavesAll listed decided

theorem deciding_of_mem_leavesAll :
    ∀ {items : List Projector} {rule : Projector} {path : Path},
      rule ∈ leavesAll items → (project rule path).isDecided = true →
        (project rule path).deciding = some rule
  | [], rule, path, listed, _ => by
      cases listed
  | item :: rest, rule, path, listed, decided => by
      rw [leavesAll] at listed
      rcases List.mem_append.1 listed with inItem | later
      · exact deciding_of_mem_leaves inItem decided
      · exact deciding_of_mem_leavesAll later decided

end

private theorem projectLast_eq_lastAnswer
    {rules : List Projector} {path : Path}
    (named :
      ∀ rule ∈ rules, (project rule path).isDecided = true →
        (project rule path).deciding = some rule) :
    projectLast rules path = lastAnswer rules path := by
  induction rules using List.reverseRecOn with
  | nil => rfl
  | append_singleton front rule hypothesis =>
      have above := hypothesis fun other listed =>
        named other (List.mem_append_left _ listed)
      rw [projectLast_append, projectLast_singleton, lastAnswer, List.reverse_append,
        List.reverse_singleton, List.singleton_append, List.find?_cons]
      cases decided : (project rule path).isDecided with
      | true =>
          have itself := named rule (List.mem_append_right _ (List.mem_singleton_self rule)) decided
          simp [← itself]
      | false => simpa [lastAnswer] using above

theorem project_eq_lastAnswer (projector : Projector) (path : Path) :
    project projector path = lastAnswer projector.leaves path := by
  rw [← projectLast_leaves]
  exact projectLast_eq_lastAnswer fun _ listed => deciding_of_mem_leaves listed

private theorem project_eq_undecided_iff (projector : Projector) (path : Path) :
    project projector path = .undecided ↔
      ∀ rule ∈ projector.leaves, (project rule path).isDecided = false := by
  rw [project_eq_lastAnswer, lastAnswer]
  constructor
  · intro undecided rule listed
    split at undecided
    · next last found =>
        have decided := List.find?_some found
        have same : (project last path).decision = .undecided :=
          congrArg Projected.decision undecided
        simp [Projected.isDecided, Decision.isDecided, same] at decided
    · next none =>
        have notDecided := List.find?_eq_none.1 none rule (List.mem_reverse.2 listed)
        exact Bool.eq_false_iff.2 notDecided
  · intro notDecided
    have notFound :
        projector.leaves.reverse.find? (fun rule => (project rule path).isDecided) = none := by
      apply List.find?_eq_none.2
      intro rule listed
      rw [notDecided rule (List.mem_reverse.1 listed)]
      exact Bool.false_ne_true
    rw [notFound]

mutual

theorem any_leaves :
    ∀ projector : Projector,
      projector.leaves.any exactMatch = projector.exactMatch ∧
        projector.leaves.any hasInclusion = projector.hasInclusion
  | .field _ _ _ => ⟨Bool.or_false _, Bool.or_false _⟩
  | .range _ _ _ _ _ => ⟨Bool.or_false _, Bool.or_false _⟩
  | .list items => by
      rw [leaves, exactMatch, hasInclusion, anyExactMatch_eq_any, anyInclusion_eq_any]
      exact any_leavesAll items

private theorem any_leavesAll :
    ∀ items : List Projector,
      (leavesAll items).any exactMatch = items.any exactMatch ∧
        (leavesAll items).any hasInclusion = items.any hasInclusion
  | [] => ⟨rfl, rfl⟩
  | item :: rest => by
      obtain ⟨itemExact, itemInclusion⟩ := any_leaves item
      obtain ⟨restExact, restInclusion⟩ := any_leavesAll rest
      rw [leavesAll, List.any_append, List.any_append, List.any_cons, List.any_cons,
        itemExact, itemInclusion, restExact, restInclusion]
      exact ⟨rfl, rfl⟩

end

/-! ## Compiling rules in a row -/

variable {tree : FieldTree} {contextPath : Path} {context : NodeId}

private theorem compileAll_singleton
    (tree : FieldTree) (rule : Projection) (contextPath : Path) (context : NodeId) :
    compileAll tree [rule] contextPath context =
      List.singleton <$> compile tree rule contextPath context := by
  rw [compileAll, compileAll]
  cases compile tree rule contextPath context <;> rfl

private theorem compileAll_append
    (tree : FieldTree) (front back : List Projection) (contextPath : Path)
    (context : NodeId) :
    compileAll tree (front ++ back) contextPath context = do
      let earlier ← compileAll tree front contextPath context
      let later ← compileAll tree back contextPath context
      return earlier ++ later := by
  induction front with
  | nil =>
      rw [List.nil_append, compileAll]
      cases compileAll tree back contextPath context <;> rfl
  | cons rule rest hypothesis =>
      rw [List.cons_append, compileAll, compileAll, hypothesis]
      cases compile tree rule contextPath context with
      | error error => rfl
      | ok item =>
          cases compileAll tree rest contextPath context with
          | error error => rfl
          | ok others => cases compileAll tree back contextPath context <;> rfl

private theorem compile_field_leaves (target : Path) (included recursive : Bool) :
    leaves <$> compile tree (.field target included recursive) contextPath context =
      List.singleton <$> compile tree (.field target included recursive) contextPath context := by
  rw [compile, compileField]
  cases targets tree target contextPath context <;> rfl

private theorem compile_range_leaves
    (target : Path) (included : Bool) (first last : UInt64) (inner : Option Projection) :
    leaves <$> compile tree (.range target included first last inner) contextPath context =
      List.singleton <$>
        compile tree (.range target included first last inner) contextPath context := by
  cases inner with
  | none =>
      rw [compile]
      cases rangeElement tree target contextPath context with
      | error error => rfl
      | ok element => cases checkBounds (contextPath ++ target) first last <;> rfl
  | some inner =>
      rw [compile]
      cases rangeElement tree target contextPath context with
      | error error => rfl
      | ok element =>
          cases checkBounds (contextPath ++ target) first last with
          | error error => rfl
          | ok passed =>
              simp only [bind, Except.bind]
              cases compile tree inner ((contextPath ++ target).child Path.wildcard) element <;>
                rfl

mutual

private theorem compileAll_leaves
    (tree : FieldTree) (contextPath : Path) (context : NodeId) :
    ∀ rule : Projection,
      compileAll tree rule.leaves contextPath context =
        leaves <$> compile tree rule contextPath context
  | .field target included recursive => by
      rw [compile_field_leaves]
      exact compileAll_singleton tree _ contextPath context
  | .range target included first last inner => by
      rw [compile_range_leaves]
      exact compileAll_singleton tree _ contextPath context
  | .list rules => by
      rw [Projection.leaves, compileAll_leavesAll tree contextPath context rules, compile]
      cases compileAll tree rules contextPath context <;> rfl

/-- The rules in a row compile to the compiled rules in a row, or fail where the lists do. -/
theorem compileAll_leavesAll
    (tree : FieldTree) (contextPath : Path) (context : NodeId) :
    ∀ rules : List Projection,
      compileAll tree (Projection.leavesAll rules) contextPath context =
        leavesAll <$> compileAll tree rules contextPath context
  | [] => rfl
  | rule :: rest => by
      rw [Projection.leavesAll, compileAll_append,
        compileAll_leaves tree contextPath context rule,
        compileAll_leavesAll tree contextPath context rest, compileAll]
      cases compile tree rule contextPath context with
      | error error => rfl
      | ok item => cases compileAll tree rest contextPath context <;> rfl

end

private theorem forall₂_of_compileAll
    {rules : List Projection} {items : List Projector}
    (success : compileAll tree rules contextPath context = .ok items) :
    List.Forall₂ (fun rule item => compile tree rule contextPath context = .ok item)
      rules items := by
  induction rules generalizing items with
  | nil =>
      cases success
      exact .nil
  | cons rule rest hypothesis =>
      obtain ⟨item, others, first, second, rfl⟩ := compileAll_cons_eq_ok_iff.1 success
      exact .cons first (hypothesis second)

/-- A projection compiles together with its rules in a row. -/
theorem compileAll_leaves_eq_ok
    {projection : Projection} {projector : Projector}
    (compiled : compile tree projection contextPath context = .ok projector) :
    compileAll tree projection.leaves contextPath context = .ok projector.leaves := by
  rw [compileAll_leaves, compiled]
  rfl

/-- The rules in a compiled projection are what the rules of the projection compile to. -/
theorem mem_leaves_iff_of_compile
    {projection : Projection} {projector item : Projector}
    (compiled : compile tree projection contextPath context = .ok projector) :
    item ∈ projector.leaves ↔
      ∃ rule ∈ projection.leaves, compile tree rule contextPath context = .ok item :=
  mem_iff_of_compileAll (compileAll_leaves_eq_ok compiled)

theorem exists_compile_of_mem_leaves
    {projection rule : Projection} {projector : Projector}
    (compiled : compile tree projection contextPath context = .ok projector)
    (declared : rule ∈ projection.leaves) :
    ∃ item, compile tree rule contextPath context = .ok item :=
  exists_compileAll_iff.1 ⟨_, compileAll_leaves_eq_ok compiled⟩ rule declared

/-- The projector is made of field rules only, in lists of any depth. -/
def HasOnlyFields (projector : Projector) : Prop :=
  ∀ rule ∈ projector.leaves, ∃ target included recursive,
    rule = .field target included recursive

theorem hasOnlyFields_of_compile
    {projection : Projection} {projector : Projector} (fields : projection.HasOnlyFields)
    (compiled : compile tree projection contextPath context = .ok projector) :
    projector.HasOnlyFields := by
  intro item listed
  obtain ⟨rule, declared, compiledRule⟩ := (mem_leaves_iff_of_compile compiled).1 listed
  obtain ⟨target, included, recursive, rfl⟩ := fields rule declared
  obtain ⟨_, deep, _, isField⟩ := compile_field_eq_ok compiledRule
  exact ⟨contextPath ++ target, included, deep, isField⟩

/-- Field rules hand on to no other projector. -/
theorem HasOnlyFields.nested_eq_none
    {projector : Projector} (fields : projector.HasOnlyFields) (path : Path) :
    (project projector path).nested = none := by
  rw [project_eq_lastAnswer, lastAnswer]
  split
  · next rule found =>
      have listed := List.mem_reverse.1 (List.mem_of_find?_eq_some found)
      obtain ⟨target, included, recursive, rfl⟩ := fields rule listed
      rw [project]
      exact projectField_nested _ target included recursive path
  · rfl

/-! ## Flattened projections -/

private theorem alike_leaves (items : List Projector) :
    Alike (.list items) (.list (leavesAll items)) := by
  obtain ⟨exact, inclusion⟩ := any_leavesAll items
  refine ⟨?_, ?_, fun path => ?_⟩
  · rw [exactMatch, exactMatch, anyExactMatch_eq_any, anyExactMatch_eq_any, exact]
  · rw [hasInclusion, hasInclusion, anyInclusion_eq_any, anyInclusion_eq_any, inclusion]
  · rw [project, project, projectLast_leavesAll]
    exact .refl _

/-- Two projections compile to projectors that are alike, or fail with one error. -/
inductive OutcomeAlike :
    Except ProjectionError Projector → Except ProjectionError Projector → Prop
  | ok {left right : Projector} : Alike left right → OutcomeAlike (.ok left) (.ok right)
  | error (error : ProjectionError) : OutcomeAlike (.error error) (.error error)

theorem OutcomeAlike.refl (outcome : Except ProjectionError Projector) :
    OutcomeAlike outcome outcome := by
  cases outcome with
  | ok projector => exact .ok (.refl projector)
  | error error => exact .error error

theorem OutcomeAlike.trans
    {left middle right : Except ProjectionError Projector}
    (first : OutcomeAlike left middle) (second : OutcomeAlike middle right) :
    OutcomeAlike left right := by
  cases first with
  | ok before =>
      cases second with
      | ok after => exact .ok (before.trans after)
  | error error => exact second

private theorem outcomeAlike_list
    {rule other : Projection} {front back : List Projection}
    (alike :
      OutcomeAlike (compile tree rule contextPath context)
        (compile tree other contextPath context)) :
    OutcomeAlike (compile tree (.list (front ++ rule :: back)) contextPath context)
      (compile tree (.list (front ++ other :: back)) contextPath context) := by
  rw [compile, compile, compileAll_append, compileAll_append, compileAll, compileAll]
  cases compileAll tree front contextPath context with
  | error error => exact .error error
  | ok earlier =>
      revert alike
      generalize compile tree rule contextPath context = ruleOutcome
      generalize compile tree other contextPath context = otherOutcome
      intro alike
      cases alike with
      | error error => exact .error error
      | ok same =>
          cases compileAll tree back contextPath context with
          | error error => exact .error error
          | ok later => exact .ok (same.list earlier later)

private theorem outcomeAlike_range
    {project other : Projection} {target : Path} {included : Bool} {first last : UInt64}
    (alike :
      ∀ innerPath inner,
        OutcomeAlike (compile tree project innerPath inner) (compile tree other innerPath inner)) :
    OutcomeAlike
      (compile tree (.range target included first last (some project)) contextPath context)
      (compile tree (.range target included first last (some other)) contextPath context) := by
  rw [compile, compile]
  cases rangeElement tree target contextPath context with
  | error error => exact .error error
  | ok element =>
      cases checkBounds (contextPath ++ target) first last with
      | error error => exact .error error
      | ok passed =>
          simp only [bind, Except.bind]
          have inner := alike ((contextPath ++ target).child Path.wildcard) element
          revert inner
          generalize compile tree project ((contextPath ++ target).child Path.wildcard) element =
            projectOutcome
          generalize compile tree other ((contextPath ++ target).child Path.wildcard) element =
            otherOutcome
          intro inner
          cases inner with
          | error error => exact .error error
          | ok same => exact .ok (same.range (contextPath ++ target) included first last)

private theorem outcomeAlike_of_flattens
    {projection flattened : Projection} (flattens : projection.Flattens flattened)
    (tree : FieldTree) (contextPath : Path) (context : NodeId) :
    OutcomeAlike (compile tree projection contextPath context)
      (compile tree flattened contextPath context) := by
  induction flattens generalizing contextPath context with
  | same projection => exact .refl _
  | list rules =>
      rw [compile, compile, compileAll_leavesAll]
      cases compileAll tree rules contextPath context with
      | error error => exact .error error
      | ok items => exact .ok (alike_leaves items)
  | inList front back _ hypothesis => exact outcomeAlike_list (hypothesis contextPath context)
  | inRange target included first last _ hypothesis => exact outcomeAlike_range hypothesis
  | trans _ _ before after => exact (before contextPath context).trans (after contextPath context)

/-- Of a list that compiles, whatever lists are in it, every rule compiles, and the last of the
compiled rules that decides a path is the one that answers about the path; if none decides it, and
only then, the list leaves it undecided, hands nothing on and names no rule. And wherever some lists
in a projection are replaced by their rules in a row, the projection still compiles or still fails with
the same error, and if it compiles, it is of the same kinds and shows the same of every document. -/
theorem lists_decide_as_rules_in_a_row
    (tree : FieldTree) (contextPath : Path) (context : NodeId) :
    (∀ rules projector,
      compile tree (.list rules) contextPath context = .ok projector →
        List.Forall₂ (fun rule leaf => compile tree rule contextPath context = .ok leaf)
            (Projection.leavesAll rules) projector.leaves ∧
          ∀ path,
            project projector path = lastAnswer projector.leaves path ∧
              (project projector path = ⟨.undecided, none, none⟩ ↔
                ∀ leaf ∈ projector.leaves, (project leaf path).isDecided = false)) ∧
      ∀ projection flattened, projection.Flattens flattened →
        match compile tree projection contextPath context,
          compile tree flattened contextPath context with
        | .ok projector, .ok flat =>
            flat.exactMatch = projector.exactMatch ∧
              flat.hasInclusion = projector.hasInclusion ∧
              ∀ documentTree document,
                projectDocument flat documentTree document =
                  projectDocument projector documentTree document
        | .error error, .error flatError => flatError = error
        | _, _ => False := by
  refine ⟨fun rules projector compiled => ⟨?_, fun path => ⟨?_, ?_⟩⟩, ?_⟩
  · obtain ⟨items, success, rfl⟩ := compile_list_eq_ok_iff.1 compiled
    have inARow := compileAll_leavesAll tree contextPath context rules
    rw [success] at inARow
    exact forall₂_of_compileAll inARow
  · exact project_eq_lastAnswer projector path
  · exact project_eq_undecided_iff projector path
  · intro projection flattened flattens
    have alike := outcomeAlike_of_flattens flattens tree contextPath context
    revert alike
    generalize compile tree projection contextPath context = outcome
    generalize compile tree flattened contextPath context = flatOutcome
    intro alike
    cases alike with
    | error error => rfl
    | ok same =>
        refine ⟨same.exact.symm, same.inclusion.symm, fun documentTree document => ?_⟩
        exact (same.projectDocument_eq documentTree document).symm

def namedTree : FieldTree :=
  FieldTree.empty.attach FieldTree.root "name" (.leaf ⟨0, 0, .scalar .string⟩ [])

def nameRule (included : Bool) : Projection :=
  .field ⟨["name"]⟩ included false

def nameProjector (included : Bool) : Projector :=
  .field ⟨["name"]⟩ included false

/-- The inclusion stands deepest in the lists, but behind the exclusion, and so it answers. -/
theorem innermost_rule_answers :
    compile namedTree (.list [.list [nameRule false, .list [nameRule true]], .list []]) .root
        FieldTree.root =
      .ok (.list [.list [nameProjector false, .list [nameProjector true]], .list []]) ∧
    project (.list [.list [nameProjector false, .list [nameProjector true]], .list []])
        ⟨["name"]⟩ =
      ⟨.included, none, some (nameProjector true)⟩ := by
  have compiled :
      compile namedTree (.list [.list [nameRule false, .list [nameRule true]], .list []]) .root
          FieldTree.root =
        .ok (.list [.list [nameProjector false, .list [nameProjector true]], .list []]) := by
    rfl
  obtain ⟨_, answers⟩ :=
    (lists_decide_as_rules_in_a_row namedTree .root FieldTree.root).1 _ _ compiled
  refine ⟨compiled, ?_⟩
  rw [(answers ⟨["name"]⟩).1]
  rfl

end Projector
end Schemata

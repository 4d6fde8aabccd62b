import Schemata.Proofs.Projector.Flattening
import Schemata.Proofs.Projector.LastExclusion

/-!
# Rules that name one path

A projector tells whether any of its rules names one path and nothing beneath it. It looks into its
lists, but not into what is nested in its ranges, and need not: whatever stands there has the wildcard
of the elements in its path.
-/
namespace Schemata.Projector

variable {tree : FieldTree} {contextPath path : Path} {context node : NodeId}
  {projection rule : Projection}

/-- A rule stands somewhere in a projection that is used at a context, and has a context of its own
there. In a list that is the one of the list. Inside of a range it is the element of the array that
the range names, with the path of the range and the wildcard behind it. -/
inductive Occurs (tree : FieldTree) (rule : Projection) (path : Path) (node : NodeId) :
    Projection → Path → NodeId → Prop
  | here (isRule : ∀ rules, rule ≠ .list rules) : Occurs tree rule path node rule path node
  | item {rules : List Projection} {item : Projection} {contextPath : Path} {context : NodeId}
      (listed : item ∈ rules) (inside : Occurs tree rule path node item contextPath context) :
      Occurs tree rule path node (.list rules) contextPath context
  | nested {target : Path} {included : Bool} {first last : UInt64} {project : Projection}
      {contextPath : Path} {context array element : NodeId}
      (named : tree.nodesMatching context contextPath target = .ok [array])
      (isElement : tree.element? array = some element)
      (inside :
        Occurs tree rule path node project ((contextPath ++ target).child Path.wildcard) element) :
      Occurs tree rule path node (.range target included first last (some project)) contextPath
        context

/-- The absolute path of a rule has no wildcards, and the rule is a range, or a field that is neither
declared recursive nor made so because all nodes that it names are arrays of leaves. -/
def NamesOnePath (tree : FieldTree) : Projection → Path → NodeId → Prop
  | .field target _ recursive, contextPath, context =>
      (contextPath ++ target).hasWildcard = false ∧ recursive = false ∧
        ∃ ids, tree.nodesMatching context contextPath target = .ok ids ∧
          ¬ ∀ id ∈ ids, tree.isScalarArray id = true
  | .range target _ _ _ _, contextPath, _ => (contextPath ++ target).hasWildcard = false
  | .list _, _, _ => False

theorem Occurs.isRule (occurs : Occurs tree rule path node projection contextPath context) :
    ∀ rules, rule ≠ .list rules := by
  induction occurs with
  | here isRule => exact isRule
  | item listed inside hypothesis => exact hypothesis
  | nested named isElement inside hypothesis => exact hypothesis

mutual

/-- The rules that a projection has beside those inside of ranges have its own context. -/
theorem occurs_of_mem_leaves :
    ∀ {projection : Projection}, rule ∈ projection.leaves →
      Occurs tree rule contextPath context projection contextPath context
  | .field target included recursive, listed => by
      rw [List.mem_singleton.1 listed]
      exact .here nofun
  | .range target included first last project, listed => by
      rw [List.mem_singleton.1 listed]
      exact .here nofun
  | .list rules, listed => by
      obtain ⟨item, itemListed, inside⟩ := exists_occurs_of_mem_leavesAll listed
      exact .item itemListed inside

theorem exists_occurs_of_mem_leavesAll :
    ∀ {rules : List Projection}, rule ∈ Projection.leavesAll rules →
      ∃ item ∈ rules, Occurs tree rule contextPath context item contextPath context
  | item :: rest, listed => by
      rcases List.mem_append.1 listed with inItem | later
      · exact ⟨item, List.mem_cons_self, occurs_of_mem_leaves inItem⟩
      · obtain ⟨other, otherListed, inside⟩ := exists_occurs_of_mem_leavesAll later
        exact ⟨other, List.mem_cons_of_mem item otherListed, inside⟩

end

theorem Occurs.hasWildcard (occurs : Occurs tree rule path node projection contextPath context)
    (wild : contextPath.hasWildcard = true) : path.hasWildcard = true := by
  induction occurs with
  | here isRule => exact wild
  | item listed inside hypothesis => exact hypothesis wild
  | nested named isElement inside hypothesis =>
      exact hypothesis (Path.hasWildcard_child_wildcard _)

theorem NamesOnePath.hasWildcard_eq_false (namesOne : NamesOnePath tree rule path node) :
    path.hasWildcard = false := by
  have apart {target : Path} (plain : (path ++ target).hasWildcard = false) :
      path.hasWildcard = false := by
    rw [Path.hasWildcard_append, Bool.or_eq_false_iff] at plain
    exact plain.1
  cases rule with
  | field target included recursive => exact apart namesOne.1
  | range target included first last project => exact apart namesOne
  | list rules => cases namesOne

/-- A rule that names one path stands beside all ranges, and has the context of the projection. -/
theorem Occurs.of_namesOnePath
    (occurs : Occurs tree rule path node projection contextPath context)
    (namesOne : NamesOnePath tree rule path node) :
    path = contextPath ∧ node = context ∧ rule ∈ projection.leaves := by
  induction occurs with
  | here isRule =>
      cases rule with
      | field target included recursive => exact ⟨rfl, rfl, List.mem_singleton_self _⟩
      | range target included first last project => exact ⟨rfl, rfl, List.mem_singleton_self _⟩
      | list rules => cases namesOne
  | @item rules item contextPath context listed inside hypothesis =>
      obtain ⟨samePath, sameNode, inItem⟩ := hypothesis
      exact ⟨samePath, sameNode, Projection.mem_leavesAll listed inItem⟩
  | nested named isElement inside hypothesis =>
      have wild := inside.hasWildcard (Path.hasWildcard_child_wildcard _)
      rw [namesOne.hasWildcard_eq_false] at wild
      cases wild

private theorem exactMatch_iff_namesOnePath {compiled : Projector}
    (isRule : ∀ rules, rule ≠ .list rules)
    (success : compile tree rule contextPath context = .ok compiled) :
    compiled.exactMatch = true ↔ NamesOnePath tree rule contextPath context := by
  cases rule with
  | field target included recursive =>
      obtain ⟨ids, targeted, rfl⟩ := exists_targets_of_compile_field success
      obtain ⟨_, named⟩ := named_of_targets targeted
      rw [exactMatch, NamesOnePath, named]
      cases recursive <;> simp [and_comm]
  | range target included first last project =>
      obtain ⟨nested, rfl⟩ := compile_range_eq_ok success
      rw [exactMatch, NamesOnePath, Bool.not_eq_true']
  | list rules => exact absurd rfl (isRule rules)

/-- A compiled projection has an exact match exactly if a rule that names one path stands anywhere in
the projection, be it in a list or inside of a range, and whatever the context is. -/
theorem exactMatch_iff_exists_occurs
    {projection : Projection} {projector : Projector}
    (compiled : compile tree projection contextPath context = .ok projector) :
    projector.exactMatch = true ↔
      ∃ rule path node,
        Occurs tree rule path node projection contextPath context ∧
          NamesOnePath tree rule path node := by
  rw [← (any_leaves projector).1, List.any_eq_true]
  constructor
  · rintro ⟨item, listed, isExact⟩
    obtain ⟨rule, declared, ruleCompiled⟩ := (mem_leaves_iff_of_compile compiled).1 listed
    have occurs : Occurs tree rule contextPath context projection contextPath context :=
      occurs_of_mem_leaves declared
    exact ⟨rule, contextPath, context, occurs,
      (exactMatch_iff_namesOnePath occurs.isRule ruleCompiled).1 isExact⟩
  · rintro ⟨rule, path, node, occurs, namesOne⟩
    obtain ⟨rfl, rfl, declared⟩ := occurs.of_namesOnePath namesOne
    obtain ⟨item, ruleCompiled⟩ := exists_compile_of_mem_leaves compiled declared
    exact ⟨item, (mem_leaves_iff_of_compile compiled).2 ⟨rule, declared, ruleCompiled⟩,
      (exactMatch_iff_namesOnePath occurs.isRule ruleCompiled).2 namesOne⟩

def firstLineAndNumbers : Projection :=
  .list [.list [firstLineRule], .excluding skuOfEveryLine]

/-- The range names one path. What is nested in it does not, although its own field has no wildcard:
at the lines, where it is used, no rule of it names one path. -/
theorem only_range_of_first_line_is_exact :
    ∃ projector inner,
      compile linesTree firstLineAndNumbers .root FieldTree.root = .ok projector ∧
        compile linesTree (.including ⟨["sku"]⟩) ⟨["lines", "*"]⟩ 2 = .ok inner ∧
        projector.exactMatch = true ∧
        (∃ rule path node,
          Occurs linesTree rule path node firstLineAndNumbers .root FieldTree.root ∧
            NamesOnePath linesTree rule path node) ∧
        inner.exactMatch = false ∧
        ¬ ∃ rule path node,
          Occurs linesTree rule path node (.including ⟨["sku"]⟩) ⟨["lines", "*"]⟩ 2 ∧
            NamesOnePath linesTree rule path node := by
  obtain ⟨projector, compiled⟩ :
      ∃ projector,
        compile linesTree firstLineAndNumbers .root FieldTree.root = .ok projector :=
    ⟨_, rfl⟩
  obtain ⟨inner, innerCompiled⟩ :
      ∃ inner, compile linesTree (.including ⟨["sku"]⟩) ⟨["lines", "*"]⟩ 2 = .ok inner :=
    ⟨_, rfl⟩
  have isExact : projector.exactMatch = true := by
    cases compiled
    rfl
  have notExact : inner.exactMatch = false := by
    cases innerCompiled
    rfl
  refine ⟨projector, inner, compiled, innerCompiled, isExact,
    (exactMatch_iff_exists_occurs compiled).1 isExact, notExact, ?_⟩
  rw [← exactMatch_iff_exists_occurs innerCompiled, notExact]
  exact Bool.false_ne_true

end Schemata.Projector

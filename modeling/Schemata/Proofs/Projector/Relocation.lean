import Schemata.Proofs.Projector.Flattening
import Schemata.Proofs.Projector.Patterns

/-!
# Projections moved to the root

A projection used at a node is the same as the projection used at the root whose rules have the path to
the node in front of their fields. The path leads to one node, and a pattern behind it names beneath the
root what it names alone beneath that node.
-/
namespace Schemata

namespace Projection

/-- The field that a rule names. A list names none itself. -/
def target? : Projection → Option Path
  | .field target _ _ => some target
  | .range target _ _ _ _ => some target
  | .list _ => none

/-- No rule, in lists of any depth, names the place itself at which the projection is used. -/
def NamesFields (projection : Projection) : Prop :=
  ∀ rule ∈ projection.leaves, ∀ target, rule.target? = some target → target.isRoot = false

mutual

/-- The projection with a path in front of the fields of its rules, in lists of any depth. What is
nested in a range is relative to the elements of the range and stays as it is. -/
def beneath (path : Path) : Projection → Projection
  | .field target included recursive => .field (path ++ target) included recursive
  | .range target included first last project =>
      .range (path ++ target) included first last project
  | .list rules => .list (beneathAll path rules)

def beneathAll (path : Path) : List Projection → List Projection
  | [] => []
  | rule :: rest => beneath path rule :: beneathAll path rest

end

theorem NamesFields.not_isRoot_of_field
    {target : Path} {included recursive : Bool}
    (named : (Projection.field target included recursive).NamesFields) :
    target.isRoot = false :=
  named _ (List.mem_singleton_self _) target rfl

theorem NamesFields.not_isRoot_of_range
    {target : Path} {included : Bool} {first last : UInt64} {project : Option Projection}
    (named : (Projection.range target included first last project).NamesFields) :
    target.isRoot = false :=
  named _ (List.mem_singleton_self _) target rfl

private theorem namesFields_list_cons_iff {rule : Projection} {rest : List Projection} :
    (Projection.list (rule :: rest)).NamesFields ↔
      rule.NamesFields ∧ (Projection.list rest).NamesFields := by
  simp only [NamesFields, leaves, leavesAll, List.forall_mem_append]

end Projection

namespace Projector

open FieldTree

variable {tree : FieldTree} {path target : Path} {context : NodeId}

private theorem nodesMatching_beneath
    (wellFormed : tree.WellFormed) (resolved : tree.resolve? path = some context)
    (target contextPath : Path) :
    tree.nodesMatching context contextPath target =
      tree.nodesMatching root .root (path ++ target) := by
  have inside := wellFormed.contains_of_resolve? resolved
  have segments : (path ++ target).segments = path.segments ++ target.segments := rfl
  rw [wellFormed.nodesMatching_root, nodesMatching, if_pos inside, segments, stepsAll_append,
    stepsAll_of_follow? resolved]

private theorem targets_beneath
    (wellFormed : tree.WellFormed) (resolved : tree.resolve? path = some context)
    (notRoot : target.isRoot = false) :
    targets tree target path context = targets tree (path ++ target) .root root := by
  unfold targets
  rw [nodesMatching_beneath wellFormed resolved, Path.isRoot_append, notRoot, Bool.and_false]
  rfl

private theorem rangeElement_beneath
    (wellFormed : tree.WellFormed) (resolved : tree.resolve? path = some context)
    (notRoot : target.isRoot = false) :
    rangeElement tree target path context = rangeElement tree (path ++ target) .root root := by
  unfold rangeElement
  rw [targets_beneath wellFormed resolved notRoot]
  rfl

mutual

private theorem compile_beneath
    (wellFormed : tree.WellFormed) (resolved : tree.resolve? path = some context) :
    ∀ {projection : Projection}, projection.NamesFields →
      compile tree projection path context = compile tree (projection.beneath path) .root root
  | .field target included recursive, named => by
      rw [Projection.beneath, compile, compile, compileField, compileField,
        targets_beneath wellFormed resolved named.not_isRoot_of_field]
      rfl
  | .range target included first last none, named => by
      rw [Projection.beneath, compile, compile,
        rangeElement_beneath wellFormed resolved named.not_isRoot_of_range]
      rfl
  | .range target included first last (some project), named => by
      rw [Projection.beneath, compile, compile,
        rangeElement_beneath wellFormed resolved named.not_isRoot_of_range]
      rfl
  | .list rules, named => by
      rw [Projection.beneath, compile, compile, compileAll_beneath wellFormed resolved named]

theorem compileAll_beneath
    (wellFormed : tree.WellFormed) (resolved : tree.resolve? path = some context) :
    ∀ {rules : List Projection}, (Projection.list rules).NamesFields →
      compileAll tree rules path context =
        compileAll tree (Projection.beneathAll path rules) .root root
  | [], _ => rfl
  | rule :: rest, named => by
      obtain ⟨first, later⟩ := Projection.namesFields_list_cons_iff.1 named
      rw [Projection.beneathAll, compileAll, compileAll, compile_beneath wellFormed resolved first,
        compileAll_beneath wellFormed resolved later]

end

/-- In every tree that operations make, at every node to which a path leads, a projection whose rules
all name something beneath the node compiles to the very projector, or fails with the very error, to
which the projection compiles at the root that has the path in front of the fields of its rules. So
both decide the same about every path, hand on the same, and are of the same kinds. -/
theorem compile_at_node_eq_compile_at_root
    (growths : List Growth) {path : Path} {context : NodeId} {projection : Projection}
    (resolved : (FieldTree.empty.growAll growths).resolve? path = some context)
    (named : projection.NamesFields) :
    compile (FieldTree.empty.growAll growths) projection path context =
      compile (FieldTree.empty.growAll growths) (projection.beneath path) .root root :=
  compile_beneath (wellFormed_empty.growAll growths) resolved named

def orderGrowths : List Growth :=
  [.object root "order", .objectArray 1 "lines", .leaf 3 "sku" ⟨0, 0, .scalar .string⟩]

def orderTree : FieldTree :=
  ((FieldTree.empty.attach root "order" (.object [])).attachArray 1 "lines" (.object [])).attach 3
    "sku" (.leaf ⟨0, 0, .scalar .string⟩ [])

private theorem growAll_orderGrowths : FieldTree.empty.growAll orderGrowths = orderTree := by
  have order : FieldTree.empty.Addable root "order" :=
    ⟨⟨by decide, by decide, by decide⟩, rfl, rfl⟩
  have lines : (FieldTree.empty.attach root "order" (.object [])).Addable 1 "lines" :=
    ⟨⟨by decide, by decide, by decide⟩, rfl, rfl⟩
  have number :
      ((FieldTree.empty.attach root "order" (.object [])).attachArray 1 "lines"
        (.object [])).Addable 3 "sku" :=
    ⟨⟨by decide, by decide, by decide⟩, rfl, rfl⟩
  simp only [orderGrowths, growAll, List.foldl_cons, List.foldl_nil, grow_object_of_addable order,
    grow_objectArray_of_addable lines, grow_leaf_of_addable number, orderTree]

/-- Two lines of an order with their numbers, but not the number of the second of them. -/
def someLines : Projection :=
  .list [
    .list [.range ⟨["lines"]⟩ true 1 2 (some (.including ⟨["sku"]⟩))],
    .excluding ⟨["lines", "2", "sku"]⟩]

def someLinesProjector : Projector :=
  .list [
    .list [
      .range ⟨["order", "lines"]⟩ true 1 2
        (some (.field ⟨["order", "lines", "*", "sku"]⟩ true false))],
    .field ⟨["order", "lines", "2", "sku"]⟩ false false]

/-- The rules move beneath the order, and the projection inside the range stays. -/
theorem someLines_of_order :
    (FieldTree.empty.growAll orderGrowths).resolve? ⟨["order"]⟩ = some 1 ∧
      someLines.NamesFields ∧
      compile (FieldTree.empty.growAll orderGrowths) someLines ⟨["order"]⟩ 1 =
        .ok someLinesProjector ∧
      compile (FieldTree.empty.growAll orderGrowths)
          (.list [
            .list [.range ⟨["order", "lines"]⟩ true 1 2 (some (.including ⟨["sku"]⟩))],
            .excluding ⟨["order", "lines", "2", "sku"]⟩]) .root root =
        .ok someLinesProjector := by
  have resolved : (FieldTree.empty.growAll orderGrowths).resolve? ⟨["order"]⟩ = some 1 := by
    rw [growAll_orderGrowths]
    rfl
  have named : someLines.NamesFields := by
    intro rule listed target names
    rcases List.mem_cons.1 listed with rfl | later
    · cases names
      rfl
    · rw [List.mem_singleton.1 later] at names
      cases names
      rfl
  have compiled :
      compile (FieldTree.empty.growAll orderGrowths) someLines ⟨["order"]⟩ 1 =
        .ok someLinesProjector := by
    rw [growAll_orderGrowths]
    rfl
  have moved := compile_at_node_eq_compile_at_root orderGrowths resolved named
  exact ⟨resolved, named, compiled, moved.symm.trans compiled⟩

end Projector
end Schemata

import Schemata.Proofs.FieldTree.Patterns
import Schemata.Proofs.Projector.Failures

/-!
# Patterns of rules

The nodes that the pattern of a rule names are those to which paths lead that fit it. So a rule that
compiles finds something in some document, and one that names two fields is told from one that names a
single one.
-/
namespace Schemata.Projector

open FieldTree

variable {tree : FieldTree} {target contextPath pattern : Path} {context : NodeId}
  {error : ProjectionError}

private theorem targets_root
    (wellFormed : tree.WellFormed) (notRoot : pattern.isRoot = false) :
    targets tree pattern .root root =
      if (tree.stepsAll [root] pattern.segments).isEmpty then .error (.unknownField pattern)
      else .ok (tree.stepsAll [root] pattern.segments) := by
  unfold targets
  rw [wellFormed.nodesMatching_root, notRoot]
  show (if (tree.stepsAll [root] pattern.segments).isEmpty then throw _ else pure _) = _
  split <;> rfl

/-- A field rule compiles at the root exactly if its pattern matches a node, and fails in one way. -/
theorem compile_field_root
    (wellFormed : tree.WellFormed) (notRoot : pattern.isRoot = false) (included recursive : Bool) :
    (∃ id compiled,
        tree.Matched pattern id ∧
          compile tree (.field pattern included recursive) .root root = .ok compiled) ∨
      (¬ ∃ id, tree.Matched pattern id) ∧
        compile tree (.field pattern included recursive) .root root =
          .error (.unknownField pattern) := by
  rw [compile, compileField, targets_root wellFormed notRoot]
  cases listed : tree.stepsAll [root] pattern.segments with
  | nil =>
      refine Or.inr ⟨?_, rfl⟩
      rintro ⟨id, matched⟩
      have named := wellFormed.mem_stepsAll_root_iff.2 matched
      rw [listed] at named
      cases named
  | cons id rest =>
      have named : id ∈ tree.stepsAll [root] pattern.segments := by
        rw [listed]
        exact List.mem_cons_self
      exact Or.inl ⟨id, _, wellFormed.mem_stepsAll_root_iff.1 named, rfl⟩

private theorem compile_range_of_rangeElement_error
    {included : Bool} {first last : UInt64} {project : Option Projection}
    (failed : rangeElement tree target contextPath context = .error error) :
    compile tree (.range target included first last project) contextPath context =
      .error error := by
  cases project with
  | none =>
      rw [compile, failed]
      rfl
  | some project =>
      rw [compile, failed]
      rfl

/-- Where the element of a range is found, nothing that is wrong with the range or beneath it
passes for an ambiguity of its field. -/
theorem compile_range_ne_ambiguous
    {included : Bool} {first last : UInt64} {project : Option Projection} {element : NodeId}
    (found : rangeElement tree target contextPath context = .ok element) :
    compile tree (.range target included first last project) contextPath context ≠
      .error (.ambiguousPath (contextPath ++ target)) := by
  intro failed
  have inOrder {next : Unit → Except ProjectionError Projector}
      (checked : checkBounds (contextPath ++ target) first last >>= next =
        .error (.ambiguousPath (contextPath ++ target))) :
      next () = .error (.ambiguousPath (contextPath ++ target)) := by
    rcases bind_eq_error_iff.1 checked with outOfOrder | ⟨_, _, failed⟩
    · unfold checkBounds at outOfOrder
      split at outOfOrder <;> cases outOfOrder
    · exact failed
  cases project with
  | none =>
      rw [compile, found] at failed
      cases inOrder failed
  | some project =>
      rw [compile, found] at failed
      rcases bind_eq_error_iff.1 (inOrder failed) with nestedFailed | ⟨_, _, impossible⟩
      · obtain ⟨path, named, beneath⟩ := compile_error nestedFailed
        cases named
        have longer := beneath.length_le
        simp only [Path.child, List.length_append, List.length_singleton] at longer
        omega
      · cases impossible

private theorem compile_range_root_eq_ambiguous_iff
    (wellFormed : tree.WellFormed) (notRoot : pattern.isRoot = false)
    {included : Bool} {first last : UInt64} {project : Option Projection} :
    compile tree (.range pattern included first last project) .root root =
        .error (.ambiguousPath pattern) ↔
      ∃ id other, id ≠ other ∧ tree.Matched pattern id ∧ tree.Matched pattern other := by
  have apart := wellFormed.nodup_stepsAll (List.nodup_singleton root) pattern.segments
  have matched (id : NodeId) :
      tree.Matched pattern id ↔ id ∈ tree.stepsAll [root] pattern.segments :=
    wellFormed.mem_stepsAll_root_iff.symm
  have targeted := targets_root wellFormed notRoot
  simp only [matched]
  match listed : tree.stepsAll [root] pattern.segments with
  | [] =>
      have noElement : rangeElement tree pattern .root root = .error (.unknownField pattern) := by
        rw [rangeElement, targeted, listed]
        rfl
      rw [compile_range_of_rangeElement_error noElement]
      constructor
      · intro impossible
        cases impossible
      · rintro ⟨id, other, _, nothing, _⟩
        cases nothing
  | [only] =>
      constructor
      · intro failed
        cases array : tree.element? only with
        | none =>
            have noElement :
                rangeElement tree pattern .root root = .error (.expectedArray pattern) := by
              rw [rangeElement, targeted, listed]
              show (tree.element? only).elim _ _ = _
              rw [array]
              rfl
            rw [compile_range_of_rangeElement_error noElement] at failed
            cases failed
        | some element =>
            have found : rangeElement tree pattern .root root = .ok element := by
              rw [rangeElement, targeted, listed]
              show (tree.element? only).elim _ _ = _
              rw [array]
              rfl
            exact absurd failed (compile_range_ne_ambiguous found)
      · rintro ⟨id, other, different, isOnly, isOnlyToo⟩
        rw [List.mem_singleton] at isOnly isOnlyToo
        exact absurd (isOnly.trans isOnlyToo.symm) different
  | id :: other :: rest =>
      have several : rangeElement tree pattern .root root = .error (.ambiguousPath pattern) := by
        rw [rangeElement, targeted, listed]
        rfl
      rw [listed, List.nodup_cons, List.mem_cons, not_or] at apart
      refine ⟨fun _ => ⟨id, other, apart.1.1, ?_, ?_⟩, fun _ => ?_⟩
      · exact List.mem_cons_self
      · exact List.mem_cons_of_mem id List.mem_cons_self
      · exact compile_range_of_rangeElement_error several

/-- In every tree that operations make, a pattern names each node once to which a path without
wildcards leads that fits it, and no other. So a field rule is refused as unknown exactly if no such
path fits it, and compiles otherwise, and a range is refused as ambiguous exactly if two nodes are
matched. -/
theorem pattern_names_matched_nodes
    (growths : List Growth) (pattern : Path) (notRoot : pattern.isRoot = false) :
    let tree := FieldTree.empty.growAll growths
    (∃ ids,
      tree.nodesMatching root .root pattern = .ok ids ∧ ids.Nodup ∧
        ∀ id, id ∈ ids ↔
          ∃ path : Path,
            path.hasWildcard = false ∧ tree.resolve? path = some id ∧ path.fits pattern = true) ∧
      (∀ included recursive,
        (compile tree (.field pattern included recursive) .root root =
            .error (.unknownField pattern) ↔
          ∀ path : Path, path.hasWildcard = false → (tree.resolve? path).isSome = true →
            path.fits pattern = false) ∧
        ((∃ compiled,
            compile tree (.field pattern included recursive) .root root = .ok compiled) ↔
          ∃ path : Path,
            path.hasWildcard = false ∧ (tree.resolve? path).isSome = true ∧
              path.fits pattern = true)) ∧
      ∀ included first last project,
        compile tree (.range pattern included first last project) .root root =
            .error (.ambiguousPath pattern) ↔
          ∃ id other, id ≠ other ∧ tree.Matched pattern id ∧ tree.Matched pattern other := by
  intro tree
  have wellFormed : tree.WellFormed := wellFormed_empty.growAll growths
  refine ⟨?_, ?_, ?_⟩
  · have apart := wellFormed.nodup_stepsAll (List.nodup_singleton root) pattern.segments
    exact ⟨_, wellFormed.nodesMatching_root .root pattern, apart,
      fun id => wellFormed.mem_stepsAll_root_iff⟩
  · intro included recursive
    rw [← exists_matched_iff, ← not_exists_matched_iff]
    rcases compile_field_root wellFormed notRoot included recursive with
      ⟨id, compiled, matched, success⟩ | ⟨unmatched, failed⟩
    · rw [success]
      exact ⟨⟨nofun, fun none => absurd ⟨id, matched⟩ none⟩, ⟨fun _ => ⟨id, matched⟩,
        fun _ => ⟨compiled, rfl⟩⟩⟩
    · rw [failed]
      exact ⟨⟨fun _ => unmatched, fun _ => rfl⟩, ⟨nofun, fun some => absurd some unmatched⟩⟩
  · intro included first last project
    exact compile_range_root_eq_ambiguous_iff wellFormed notRoot

def numberedLines : List Growth :=
  [.objectArray root "lines", .leaf 2 "3" ⟨0, 0, .scalar .uid⟩,
    .leaf 2 "sku" ⟨0, 0, .scalar .string⟩]

private theorem growAll_numberedLines :
    FieldTree.empty.growAll numberedLines =
      ((FieldTree.empty.attachArray root "lines" (.object [])).attach 2 "3"
        (.leaf ⟨0, 0, .scalar .uid⟩ [])).attach 2 "sku" (.leaf ⟨0, 0, .scalar .string⟩ []) := by
  have lines : FieldTree.empty.Addable root "lines" :=
    ⟨⟨by decide, by decide, by decide⟩, rfl, rfl⟩
  have number : (FieldTree.empty.attachArray root "lines" (.object [])).Addable 2 "3" :=
    ⟨⟨by decide, by decide, by decide⟩, rfl, rfl⟩
  have text : ((FieldTree.empty.attachArray root "lines" (.object [])).attach 2 "3"
      (.leaf ⟨0, 0, .scalar .uid⟩ [])).Addable 2 "sku" :=
    ⟨⟨by decide, by decide, by decide⟩, rfl, rfl⟩
  simp only [numberedLines, growAll, List.foldl_cons, List.foldl_nil,
    grow_objectArray_of_addable lines, grow_leaf_of_addable number, grow_leaf_of_addable text]

/-- An index selects the element of the lines, and the wildcard behind it matches both fields. -/
theorem fields_of_line_are_ambiguous :
    (Path.mk ["lines", "7", "*"]).isRoot = false ∧
      compile (FieldTree.empty.growAll numberedLines)
          (.range ⟨["lines", "7", "*"]⟩ true 0 1 none) .root root =
        .error (.ambiguousPath ⟨["lines", "7", "*"]⟩) := by
  have notRoot : (Path.mk ["lines", "7", "*"]).isRoot = false := rfl
  have toNumber :
      (FieldTree.empty.growAll numberedLines).resolve? ⟨["lines", "7", "3"]⟩ = some 3 := by
    rw [growAll_numberedLines]
    rfl
  have toText :
      (FieldTree.empty.growAll numberedLines).resolve? ⟨["lines", "7", "sku"]⟩ = some 4 := by
    rw [growAll_numberedLines]
    rfl
  have ambiguous := (pattern_names_matched_nodes numberedLines _ notRoot).2.2 true 0 1 none
  refine ⟨notRoot, ambiguous.2 ⟨3, 4, by decide, ?_, ?_⟩⟩
  · exact ⟨⟨["lines", "7", "3"]⟩, rfl, toNumber, by decide⟩
  · exact ⟨⟨["lines", "7", "sku"]⟩, rfl, toText, by decide⟩

end Schemata.Projector

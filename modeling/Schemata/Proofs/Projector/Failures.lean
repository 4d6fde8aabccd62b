import Schemata.Proofs.Attempt
import Schemata.Proofs.Projector.Rules

/-!
# Failures to compile

Compiling a projection fails with the path of what is wrong, and that lies at or beneath the node for
which it is compiled.
-/
namespace Schemata

/-- The path that a failure to compile names. -/
def ProjectionError.path? : ProjectionError → Option Path
  | .invalidPath field => some field
  | .ambiguousPath field => some field
  | .unknownField field => some field
  | .unknownContext context => some context
  | .expectedArray field => some field
  | .invalidRange field _ _ => some field
  | .notAnObject => none
  | .malformed _ => none

/-- The failure names a path that begins with the path of the context. -/
def ProjectionError.IsUnder (contextPath : Path) (error : ProjectionError) : Prop :=
  ∃ path, error.path? = some path ∧ contextPath.segments <+: path.segments

namespace Projector

open FieldTree

variable {tree : FieldTree} {target contextPath : Path} {context : NodeId}
  {error : ProjectionError}

private theorem isUnder_of_path?
    (named : error.path? = some (contextPath ++ target)) : error.IsUnder contextPath :=
  ⟨contextPath ++ target, named, List.prefix_append _ _⟩

private theorem targets_error
    (failed : targets tree target contextPath context = .error error) :
    error.IsUnder contextPath := by
  unfold targets at failed
  split at failed
  · cases failed
    exact isUnder_of_path? rfl
  · rcases bind_eq_error_iff.1 failed with outside | ⟨ids, _, nothing⟩
    · unfold nodesMatching at outside
      split at outside
      · cases outside
      · cases outside
        exact ⟨contextPath, rfl, List.prefix_rfl⟩
    · split at nothing
      · cases nothing
        exact isUnder_of_path? rfl
      · cases nothing

private theorem rangeElement_error
    (failed : rangeElement tree target contextPath context = .error error) :
    error.IsUnder contextPath := by
  unfold rangeElement at failed
  rcases bind_eq_error_iff.1 failed with noTargets | ⟨ids, _, unfit⟩
  · exact targets_error noTargets
  · split at unfit
    · next id _ =>
        cases array : tree.element? id with
        | none =>
            rw [array] at unfit
            cases unfit
            exact isUnder_of_path? rfl
        | some element =>
            rw [array] at unfit
            cases unfit
    · cases unfit
      exact isUnder_of_path? rfl

private theorem checkBounds_error {first last : UInt64}
    (failed : checkBounds (contextPath ++ target) first last = .error error) :
    error.IsUnder contextPath := by
  unfold checkBounds at failed
  split at failed
  · cases failed
    exact isUnder_of_path? rfl
  · cases failed

mutual

/-- Every failure to compile names a path at or beneath the context. -/
theorem compile_error :
    ∀ {projection : Projection} {contextPath : Path} {context : NodeId},
      compile tree projection contextPath context = .error error → error.IsUnder contextPath
  | .field target included recursive, contextPath, context, failed => by
      rw [compile, compileField] at failed
      rcases bind_eq_error_iff.1 failed with noTargets | ⟨_, _, impossible⟩
      · exact targets_error noTargets
      · cases impossible
  | .range target included first last none, contextPath, context, failed => by
      rw [compile] at failed
      rcases bind_eq_error_iff.1 failed with noElement | ⟨_, _, failed⟩
      · exact rangeElement_error noElement
      · rcases bind_eq_error_iff.1 failed with outOfOrder | ⟨_, _, impossible⟩
        · exact checkBounds_error outOfOrder
        · cases impossible
  | .range target included first last (some project), contextPath, context, failed => by
      rw [compile] at failed
      rcases bind_eq_error_iff.1 failed with noElement | ⟨_, _, failed⟩
      · exact rangeElement_error noElement
      · rcases bind_eq_error_iff.1 failed with outOfOrder | ⟨_, _, failed⟩
        · exact checkBounds_error outOfOrder
        · rcases bind_eq_error_iff.1 failed with nestedFailed | ⟨_, _, impossible⟩
          · obtain ⟨path, named, beneath⟩ := compile_error nestedFailed
            refine ⟨path, named, List.IsPrefix.trans ?_ beneath⟩
            exact (List.prefix_append _ _).trans (List.prefix_append _ _)
          · cases impossible
  | .list rules, contextPath, context, failed => by
      rw [compile] at failed
      cases outcome : compileAll tree rules contextPath context with
      | error other =>
          rw [outcome] at failed
          cases failed
          exact compileAll_error outcome
      | ok items =>
          rw [outcome] at failed
          cases failed

theorem compileAll_error :
    ∀ {rules : List Projection} {contextPath : Path} {context : NodeId},
      compileAll tree rules contextPath context = .error error → error.IsUnder contextPath
  | [], contextPath, context, failed => by cases failed
  | rule :: rest, contextPath, context, failed => by
      rw [compileAll] at failed
      rcases bind_eq_error_iff.1 failed with first | ⟨_, _, failed⟩
      · exact compile_error first
      · rcases bind_eq_error_iff.1 failed with later | ⟨_, _, impossible⟩
        · exact compileAll_error later
        · cases impossible

end

end Projector
end Schemata

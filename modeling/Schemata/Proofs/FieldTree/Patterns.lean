import Mathlib.Data.List.Nodup
import Schemata.Projector.Compile
import Schemata.Proofs.FieldTree.Paths

/-!
# Patterns in field trees

A pattern names nodes of a field tree in one go, going down a level with each segment. A path of a
document fits a pattern segment by segment. Both say the same: a pattern names the nodes to which the
paths without wildcards lead that fit it, and each of them once.
-/
namespace Schemata

namespace Path

private theorem segmentsFit_cons_iff {segments more : List String} {first : String} :
    segmentsFit segments (first :: more) = true ↔
      ∃ segment rest,
        segments = segment :: rest ∧ segmentFits segment first = true ∧
          segmentsFit rest more = true := by
  cases segments with
  | nil => simp [segmentsFit]
  | cons segment rest => simp [segmentsFit]

private theorem segmentsFit_nil_iff {segments : List String} :
    segmentsFit segments [] = true ↔ segments = [] := by
  cases segments <;> simp [segmentsFit]

end Path

namespace FieldTree

variable {tree : FieldTree} {id child : NodeId} {ids : List NodeId} {segment : String}

private theorem mem_stepAll_iff_of_object (object : tree.hasObject id = true) :
    child ∈ tree.stepAll segment id ↔
      if segment = Path.wildcard then child ∈ tree.children id
      else tree.child? id segment = some child := by
  obtain ⟨children, shape⟩ := hasObject_iff.1 object
  have known : (tree.node? id).map FieldNode.shape = some (.object children) := shape
  rw [stepAll, known, children_of_object shape]
  dsimp only
  split
  · rfl
  · exact Option.mem_toList

private theorem mem_stepAll_iff_of_array {element : NodeId}
    (array : tree.element? id = some element) :
    child ∈ tree.stepAll segment id ↔ Path.selectsElement segment = true ∧ child = element := by
  have known : (tree.node? id).map FieldNode.shape = some (.array element) :=
    element?_eq_some_iff.1 array
  rw [stepAll, known]
  dsimp only
  split
  · next selects => simp [selects]
  · next fails => simp [fails]

private theorem hasObject_or_exists_element_of_mem_stepAll
    (named : child ∈ tree.stepAll segment id) :
    tree.hasObject id = true ∨ ∃ element, tree.element? id = some element := by
  unfold stepAll at named
  split at named
  · next children shape => exact Or.inl (hasObject_iff.2 ⟨children, shape⟩)
  · next element shape => exact Or.inr ⟨element, element?_eq_some_iff.2 shape⟩
  · cases named

/-- A segment that leads to a node names that node alone. -/
theorem stepAll_of_step? (led : tree.step? id segment = some child) :
    tree.stepAll segment id = [child] := by
  rcases step?_eq_some_iff.1 led with ⟨object, plain, found⟩ | ⟨array, selects⟩
  · obtain ⟨children, shape⟩ := hasObject_iff.1 object
    have known : (tree.node? id).map FieldNode.shape = some (.object children) := shape
    simp only [stepAll, known, if_neg plain, found, Option.toList_some]
  · have known : (tree.node? id).map FieldNode.shape = some (.array child) :=
      element?_eq_some_iff.1 array
    simp only [stepAll, known, if_pos selects]

namespace WellFormed

/-- The nodes that a segment of a pattern names are those to which a segment of a path leads that
fits it. -/
theorem mem_stepAll_iff (wellFormed : tree.WellFormed) :
    child ∈ tree.stepAll segment id ↔
      ∃ taken,
        taken ≠ Path.wildcard ∧ tree.step? id taken = some child ∧
          Path.segmentFits taken segment = true := by
  constructor
  · intro named
    rcases hasObject_or_exists_element_of_mem_stepAll named with object | ⟨element, array⟩
    · rw [mem_stepAll_iff_of_object object] at named
      split at named
      · next isWildcard =>
          obtain ⟨name, hasName, isFieldName⟩ := wellFormed.fieldsNamed id child object named
          have found := wellFormed.child?_of_listed object named hasName
          have plain := isFieldName.notWildcard
          refine ⟨name, plain, step?_eq_some_iff.2 (Or.inl ⟨object, plain, found⟩), ?_⟩
          exact (Path.segmentFits_of_ne_wildcard plain).2 (Or.inr isWildcard)
      · next plain =>
          refine ⟨segment, plain, step?_eq_some_iff.2 (Or.inl ⟨object, plain, named⟩), ?_⟩
          exact (Path.segmentFits_of_ne_wildcard plain).2 (Or.inl rfl)
    · obtain ⟨selects, rfl⟩ := (mem_stepAll_iff_of_array array).1 named
      by_cases isWildcard : segment = Path.wildcard
      · have plain : "0" ≠ Path.wildcard := by decide
        have isIndex : Path.selectsElement "0" = true := by decide
        refine ⟨"0", plain, step?_eq_some_iff.2 (Or.inr ⟨array, isIndex⟩), ?_⟩
        exact (Path.segmentFits_of_ne_wildcard plain).2 (Or.inr isWildcard)
      · refine ⟨segment, isWildcard, step?_eq_some_iff.2 (Or.inr ⟨array, selects⟩), ?_⟩
        exact (Path.segmentFits_of_ne_wildcard isWildcard).2 (Or.inl rfl)
  · rintro ⟨taken, plain, led, fits⟩
    have agrees := (Path.segmentFits_of_ne_wildcard plain).1 fits
    rcases step?_eq_some_iff.1 led with ⟨object, _, found⟩ | ⟨array, selects⟩
    · rw [mem_stepAll_iff_of_object object]
      split
      · exact List.mem_of_find?_eq_some found
      · next notWildcard =>
          have same : taken = segment := agrees.resolve_right notWildcard
          rwa [← same]
    · refine (mem_stepAll_iff_of_array array).2 ⟨?_, rfl⟩
      rcases agrees with same | isWildcard
      · rwa [← same]
      · simp [Path.selectsElement, isWildcard]

private theorem parent?_of_mem_stepAll (wellFormed : tree.WellFormed)
    (named : child ∈ tree.stepAll segment id) :
    tree.parent? child = some id := by
  obtain ⟨taken, _, led, _⟩ := wellFormed.mem_stepAll_iff.1 named
  exact wellFormed.backed id child (wellFormed.child_of_step? led).1

private theorem nodup_stepAll (wellFormed : tree.WellFormed) (segment : String) (id : NodeId) :
    (tree.stepAll segment id).Nodup := by
  unfold stepAll
  split
  · next children shape =>
      split
      · have object : tree.hasObject id = true := hasObject_iff.2 ⟨children, shape⟩
        have apart := (wellFormed.namesApart id object).of_map
        rwa [children_of_object shape] at apart
      · cases tree.child? id segment with
        | none => exact List.nodup_nil
        | some child => exact List.nodup_singleton child
  · split
    · exact List.nodup_singleton _
    · exact List.nodup_nil
  · exact List.nodup_nil

end WellFormed

theorem stepsAll_cons (tree : FieldTree) (ids : List NodeId) (first : String)
    (rest : List String) :
    tree.stepsAll ids (first :: rest) = tree.stepsAll (ids.flatMap (tree.stepAll first)) rest :=
  rfl

theorem follow?_cons (tree : FieldTree) (id : NodeId) (first : String) (rest : List String) :
    tree.follow? id (first :: rest) =
      (tree.step? id first).bind fun below => tree.follow? below rest :=
  List.foldlM_cons

theorem stepsAll_append (tree : FieldTree) (ids : List NodeId) (front back : List String) :
    tree.stepsAll ids (front ++ back) = tree.stepsAll (tree.stepsAll ids front) back :=
  List.foldl_append

/-- The segments of a path that leads to a node name that node alone. -/
theorem stepsAll_of_follow? {segments : List String} (led : tree.follow? id segments = some child) :
    tree.stepsAll [id] segments = [child] := by
  induction segments generalizing id with
  | nil =>
      cases led
      rfl
  | cons first rest hypothesis =>
      rw [follow?_cons] at led
      obtain ⟨below, step, ledRest⟩ := Option.bind_eq_some_iff.1 led
      rw [stepsAll_cons, List.flatMap_singleton, stepAll_of_step? step]
      exact hypothesis ledRest

/-- A path without wildcards leads to the node and fits the pattern. -/
def Matched (tree : FieldTree) (pattern : Path) (id : NodeId) : Prop :=
  ∃ path : Path,
    path.hasWildcard = false ∧ tree.resolve? path = some id ∧ path.fits pattern = true

theorem exists_matched_iff {pattern : Path} :
    (∃ id, tree.Matched pattern id) ↔
      ∃ path : Path,
        path.hasWildcard = false ∧ (tree.resolve? path).isSome = true ∧
          path.fits pattern = true := by
  constructor
  · rintro ⟨id, path, plain, led, fits⟩
    exact ⟨path, plain, Option.isSome_iff_exists.2 ⟨id, led⟩, fits⟩
  · rintro ⟨path, plain, leads, fits⟩
    obtain ⟨id, led⟩ := Option.isSome_iff_exists.1 leads
    exact ⟨id, path, plain, led, fits⟩

theorem not_exists_matched_iff {pattern : Path} :
    (¬ ∃ id, tree.Matched pattern id) ↔
      ∀ path : Path, path.hasWildcard = false → (tree.resolve? path).isSome = true →
        path.fits pattern = false := by
  rw [exists_matched_iff]
  simp only [not_exists, not_and, Bool.not_eq_true]

namespace WellFormed

private theorem mem_stepsAll_iff (wellFormed : tree.WellFormed) {segments : List String} :
    id ∈ tree.stepsAll ids segments ↔
      ∃ above ∈ ids, ∃ taken : List String,
        Path.wildcard ∉ taken ∧ tree.follow? above taken = some id ∧
          Path.segmentsFit taken segments = true := by
  induction segments generalizing ids with
  | nil =>
      constructor
      · intro listed
        exact ⟨id, listed, [], List.not_mem_nil, rfl, rfl⟩
      · rintro ⟨above, listed, taken, _, led, fits⟩
        rw [Path.segmentsFit_nil_iff] at fits
        subst fits
        cases led
        exact listed
  | cons first rest hypothesis =>
      rw [stepsAll_cons, hypothesis]
      constructor
      · rintro ⟨below, named, taken, plain, led, fits⟩
        obtain ⟨above, listed, stepped⟩ := List.mem_flatMap.1 named
        obtain ⟨segment, plainSegment, step, fitsFirst⟩ := wellFormed.mem_stepAll_iff.1 stepped
        refine ⟨above, listed, segment :: taken, ?_, ?_, ?_⟩
        · rw [List.mem_cons, not_or]
          exact ⟨Ne.symm plainSegment, plain⟩
        · rw [follow?_cons, step]
          exact led
        · exact Path.segmentsFit_cons_iff.2 ⟨segment, taken, rfl, fitsFirst, fits⟩
      · rintro ⟨above, listed, segments, plain, led, fits⟩
        obtain ⟨segment, taken, rfl, fitsFirst, fitsRest⟩ := Path.segmentsFit_cons_iff.1 fits
        rw [List.mem_cons, not_or] at plain
        rw [follow?_cons] at led
        obtain ⟨below, step, ledRest⟩ := Option.bind_eq_some_iff.1 led
        have named : below ∈ tree.stepAll first above :=
          wellFormed.mem_stepAll_iff.2 ⟨segment, Ne.symm plain.1, step, fitsFirst⟩
        exact ⟨below, List.mem_flatMap.2 ⟨above, listed, named⟩, taken, plain.2, ledRest, fitsRest⟩

theorem nodup_stepsAll (wellFormed : tree.WellFormed) (apart : ids.Nodup)
    (segments : List String) :
    (tree.stepsAll ids segments).Nodup := by
  induction segments generalizing ids with
  | nil => exact apart
  | cons first rest hypothesis =>
      rw [stepsAll_cons]
      apply hypothesis
      refine List.nodup_flatMap.2 ⟨fun id _ => wellFormed.nodup_stepAll first id, ?_⟩
      refine apart.imp fun {left right} different child namedLeft namedRight => ?_
      have underLeft := wellFormed.parent?_of_mem_stepAll namedLeft
      have underRight := wellFormed.parent?_of_mem_stepAll namedRight
      exact different (Option.some.inj (underLeft.symm.trans underRight))

/-- The nodes that a pattern names beneath the root are those that paths find which fit it. -/
theorem mem_stepsAll_root_iff (wellFormed : tree.WellFormed) {pattern : Path} :
    id ∈ tree.stepsAll [root] pattern.segments ↔ tree.Matched pattern id := by
  rw [wellFormed.mem_stepsAll_iff]
  constructor
  · rintro ⟨above, listed, taken, plain, led, fits⟩
    rw [List.mem_singleton.1 listed] at led
    refine ⟨⟨taken⟩, ?_, led, fits⟩
    simpa [Path.hasWildcard] using plain
  · rintro ⟨path, plain, led, fits⟩
    refine ⟨root, List.mem_singleton_self root, path.segments, ?_, led, fits⟩
    simpa [Path.hasWildcard] using plain

theorem nodesMatching_root (wellFormed : tree.WellFormed) (contextPath pattern : Path) :
    tree.nodesMatching root contextPath pattern = .ok (tree.stepsAll [root] pattern.segments) := by
  obtain ⟨node, found, _⟩ := exists_node_of_any wellFormed.rootObject
  have inside : tree.contains root = true := by
    rw [contains, found]
    rfl
  rw [nodesMatching, if_pos inside]

end WellFormed

end FieldTree

end Schemata

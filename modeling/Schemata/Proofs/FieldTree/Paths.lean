import Mathlib.Data.List.Induction
import Mathlib.Data.List.Nodup
import Schemata.Proofs.FieldTree.WellFormed
import Schemata.Proofs.Path

/-!
# Paths of fields

The path of a node is found by going up from the node, and the node of a path by going down from
the root. In a well-formed tree one undoes the other, except that a path may name an element of an
array by an index where the path of the node has the wildcard.
-/
namespace Schemata.FieldTree

variable {tree : FieldTree} {id parent child : NodeId} {name segment : String}

private theorem exists_node_of_parent? (known : tree.parent? id = some parent) :
    ∃ node, tree.node? id = some node ∧ node.parent = some parent :=
  Option.bind_eq_some_iff.1 known

private theorem namesDownTo_of_top (top : tree.parent? id = none) (below : List String) :
    tree.namesDownTo id below = below := by
  rw [namesDownTo]
  cases found : tree.node? id with
  | none => rfl
  | some node =>
      have noParent : node.parent = none := by
        simpa [parent?, found] using top
      simp [noParent]

private theorem namesDownTo_of_parent
    (known : tree.parent? id = some parent) (earlier : parent < id)
    (named : tree.name? id = some name) (below : List String) :
    tree.namesDownTo id below = tree.namesDownTo parent (name :: below) := by
  obtain ⟨node, found, above⟩ := exists_node_of_parent? known
  have sameName : node.name = name := by
    simpa [name?, found] using named
  rw [namesDownTo, found]
  simp [above, earlier, sameName]

private theorem namesDownTo_eq_append (tree : FieldTree) (id : NodeId) (below : List String) :
    tree.namesDownTo id below = tree.namesDownTo id [] ++ below := by
  induction id using Nat.strongRecOn generalizing below with
  | ind id hypothesis =>
      rw [namesDownTo, namesDownTo]
      cases tree.node? id with
      | none => rfl
      | some node =>
          cases known : node.parent with
          | none => simp [known]
          | some parent =>
              by_cases earlier : parent < id
              · have withName := hypothesis parent earlier [node.name]
                have withAll := hypothesis parent earlier (node.name :: below)
                simp [known, earlier, withName, withAll]
              · simp [known, earlier]

theorem fullPath_of_top (top : tree.parent? id = none) :
    tree.fullPath id = Path.root := by
  rw [fullPath, namesDownTo_of_top top, Path.root]

theorem fullPath_of_parent
    (known : tree.parent? id = some parent) (earlier : parent < id)
    (named : tree.name? id = some name) :
    tree.fullPath id = (tree.fullPath parent).child name := by
  rw [fullPath, namesDownTo_of_parent known earlier named, namesDownTo_eq_append]
  rfl

private theorem resolve?_root (tree : FieldTree) :
    tree.resolve? Path.root = some root :=
  rfl

theorem resolve?_child (tree : FieldTree) (path : Path) (segment : String) :
    tree.resolve? (path.child segment) =
      (tree.resolve? path).bind fun above => tree.step? above segment := by
  rw [resolve?, follow?, Path.child, List.foldlM_append]
  simp [resolve?, follow?]

/-- An object is left by the name of a child that is not the wildcard, an array by a segment that
selects its element. -/
theorem step?_eq_some_iff :
    tree.step? id segment = some child ↔
      (tree.hasObject id = true ∧ segment ≠ Path.wildcard ∧
          tree.child? id segment = some child) ∨
        (tree.element? id = some child ∧ Path.selectsElement segment = true) := by
  unfold step? hasObject element?
  cases found : tree.node? id with
  | none => simp
  | some node =>
      cases shape : node.shape with
      | object children => simp [FieldNode.isObject, shape]
      | leaf type constraints => simp [FieldNode.isObject, shape]
      | array element =>
          simp only [Option.map_some, shape, Option.any_some, FieldNode.isObject]
          cases Path.selectsElement segment <;> simp

/-- Only objects and arrays have children, and an array has its element. -/
theorem hasObject_or_element?_of_mem_children (listed : child ∈ tree.children id) :
    tree.hasObject id = true ∨ tree.element? id = some child := by
  unfold children at listed
  unfold hasObject element?
  cases found : tree.node? id with
  | none => simp [found] at listed
  | some node =>
      cases shape : node.shape with
      | object children => simp [FieldNode.isObject, shape]
      | leaf type constraints => simp [found, FieldNode.children, shape] at listed
      | array element =>
          have isElement : child = element := by
            simpa [found, FieldNode.children, shape] using listed
          simp [shape, isElement]

theorem not_element?_of_hasObject (object : tree.hasObject id = true) :
    tree.element? id = none := by
  obtain ⟨node, found, isObject⟩ := exists_node_of_any object
  unfold FieldNode.isObject at isObject
  unfold element?
  cases shape : node.shape <;> simp_all

theorem Linked.mem_children_of_parent?
    (linked : tree.Linked) (known : tree.parent? id = some parent) :
    id ∈ tree.children parent ∧ parent < id := by
  have notRoot : id ≠ root := by
    intro atRoot
    rw [atRoot, linked.rootTop] at known
    cases known
  obtain ⟨other, knownOther, earlier, once, _⟩ :=
    linked.listed id (lt_size_of_parent? known) notRoot
  have same : other = parent := by
    rw [known] at knownOther
    exact (Option.some.inj knownOther).symm
  subst same
  exact ⟨List.count_pos_iff.1 (by omega), earlier⟩

theorem exists_name_of_lt_size (inside : id < tree.size) :
    ∃ name, tree.name? id = some name := by
  obtain ⟨node, found⟩ := exists_node_of_lt_size inside
  exact ⟨node.name, by simp [name?, found]⟩

theorem name?_eq_some_nameAt (inside : id < tree.size) :
    tree.name? id = some (tree.nameAt id) := by
  obtain ⟨name, named⟩ := exists_name_of_lt_size inside
  rw [nameAt, named, Option.getD_some]

namespace WellFormed

/-- The name of a field finds the field, since no other field of the object has it. -/
theorem child?_of_listed
    (wellFormed : tree.WellFormed) (object : tree.hasObject parent = true)
    (listed : child ∈ tree.children parent) (named : tree.name? child = some name) :
    tree.child? parent name = some child := by
  cases found : tree.child? parent name with
  | none => exact absurd named (child?_eq_none_iff.1 found child listed)
  | some other =>
      have otherNamed : tree.name? other = some name := isNamed_iff.1 (List.find?_some found)
      have otherListed : other ∈ tree.children parent := List.mem_of_find?_eq_some found
      have same : other = child :=
        List.inj_on_of_nodup_map (wellFormed.namesApart parent object) otherListed listed
          (otherNamed.trans named.symm)
      rw [same]

/-- The name of a node leads from its parent to the node. -/
theorem step?_of_parent?
    (wellFormed : tree.WellFormed) (known : tree.parent? id = some parent)
    (named : tree.name? id = some name) :
    tree.step? parent name = some id := by
  have listed := (wellFormed.mem_children_of_parent? known).1
  apply step?_eq_some_iff.2
  rcases hasObject_or_element?_of_mem_children listed with object | element
  · obtain ⟨fieldName, sameNamed, isFieldName⟩ :=
      wellFormed.fieldsNamed parent id object listed
    have notWildcard : name ≠ Path.wildcard := by
      rw [named] at sameNamed
      rw [Option.some.inj sameNamed]
      exact isFieldName.notWildcard
    exact Or.inl ⟨object, notWildcard, wellFormed.child?_of_listed object listed named⟩
  · have isWildcard : name = Path.wildcard := by
      have namedWildcard := (wellFormed.elements parent id element).2.1
      rw [named] at namedWildcard
      exact Option.some.inj namedWildcard
    have selects : Path.selectsElement name = true := by
      simp [Path.selectsElement, isWildcard]
    exact Or.inr ⟨element, selects⟩

end WellFormed

/-- A segment as it stands in the paths of fields: the wildcard where it leads from an array to
its element, else itself. -/
def fieldSegment (tree : FieldTree) (above : NodeId) (segment : String) : String :=
  if (tree.element? above).isSome then Path.wildcard else segment

namespace WellFormed

/-- A segment that leads somewhere leads to a child, whose name it is or stands for. -/
theorem child_of_step?
    (wellFormed : tree.WellFormed) (led : tree.step? parent segment = some child) :
    child ∈ tree.children parent ∧
      tree.name? child = some (tree.fieldSegment parent segment) := by
  rcases step?_eq_some_iff.1 led with ⟨object, _, found⟩ | ⟨element, _⟩
  · have named : tree.name? child = some segment := isNamed_iff.1 (List.find?_some found)
    have noElement : tree.element? parent = none := not_element?_of_hasObject object
    refine ⟨List.mem_of_find?_eq_some found, ?_⟩
    simp [fieldSegment, noElement, named]
  · have named := (wellFormed.elements parent child element).2.1
    refine ⟨mem_children_of_element? element, ?_⟩
    simp [fieldSegment, element, named]

/-- Going up from a node and down again leads to the node. -/
theorem resolve?_fullPath
    (wellFormed : tree.WellFormed) (inside : id < tree.size) :
    tree.resolve? (tree.fullPath id) = some id := by
  induction id using Nat.strongRecOn with
  | ind id hypothesis =>
      by_cases atRoot : id = root
      · rw [atRoot, fullPath_of_top wellFormed.rootTop, resolve?_root]
      · obtain ⟨parent, known, earlier, _⟩ := wellFormed.listed id inside atRoot
        obtain ⟨name, named⟩ := exists_name_of_lt_size inside
        have above := hypothesis parent earlier (Nat.lt_trans earlier inside)
        rw [fullPath_of_parent known earlier named, resolve?_child, above]
        exact wellFormed.step?_of_parent? known named

/-- The path of a child is that of its parent with one more segment. -/
theorem fullPath_of_step?
    (wellFormed : tree.WellFormed) (led : tree.step? parent segment = some child) :
    tree.fullPath child =
      (tree.fullPath parent).child (tree.fieldSegment parent segment) := by
  obtain ⟨listed, named⟩ := wellFormed.child_of_step? led
  have known := wellFormed.backed parent child listed
  have earlier := (wellFormed.mem_children_of_parent? known).2
  exact fullPath_of_parent known earlier named

/-- A path leads only to nodes of the tree. -/
theorem contains_of_resolve?
    (wellFormed : tree.WellFormed) {path : Path} (resolved : tree.resolve? path = some id) :
    tree.contains id = true := by
  obtain ⟨segments⟩ := path
  rcases segments.eq_nil_or_concat' with rfl | ⟨above, last, rfl⟩
  · cases resolved
    obtain ⟨node, found, _⟩ := exists_node_of_any wellFormed.rootObject
    exact Option.isSome_of_eq_some found
  · have stepped := resolve?_child tree ⟨above⟩ last
    rw [Path.child, resolved] at stepped
    obtain ⟨parent, _, led⟩ := Option.bind_eq_some_iff.1 stepped.symm
    have listed := (wellFormed.child_of_step? led).1
    obtain ⟨node, found⟩ := exists_node_of_lt_size (wellFormed.lt_size_of_child listed)
    exact Option.isSome_of_eq_some found

/-- Whatever path leads to a node, the path of the node has its length, and differs from it only
in the segments that select elements. -/
theorem fullPath_of_resolve?
    (wellFormed : tree.WellFormed) {path : Path} (resolved : tree.resolve? path = some id) :
    (tree.fullPath id).length = path.length ∧
      ∀ place segment, path.segment? place = some segment →
        ∃ above,
          tree.resolve? (path.take place) = some above ∧
            (tree.fullPath id).segment? place = some (tree.fieldSegment above segment) := by
  obtain ⟨segments⟩ := path
  -- The last segment of a path leads from where all others lead, so the induction is from the back.
  induction segments using List.reverseRecOn generalizing id with
  | nil =>
      have atRoot : id = root := (Option.some.inj resolved).symm
      rw [atRoot, fullPath_of_top wellFormed.rootTop]
      exact ⟨rfl, fun place segment found => by cases found⟩
  | append_singleton segments last hypothesis =>
      have stepped := resolve?_child tree ⟨segments⟩ last
      rw [Path.child, resolved] at stepped
      obtain ⟨parent, reached, led⟩ := Option.bind_eq_some_iff.1 stepped.symm
      obtain ⟨sameLength, agrees⟩ := hypothesis reached
      have lengthAbove : (tree.fullPath parent).segments.length = segments.length := sameLength
      have grown := wellFormed.fullPath_of_step? led
      rw [grown]
      refine ⟨by simp [Path.length, Path.child, lengthAbove], ?_⟩
      intro place segment found
      simp only [Path.segment?, Path.child, Path.take] at found agrees ⊢
      rcases Nat.lt_trichotomy place segments.length with before | atLast | beyond
      · rw [List.getElem?_append_left before] at found
        rw [List.take_append_of_le_length (Nat.le_of_lt before),
          List.getElem?_append_left (by omega)]
        exact agrees place segment found
      · subst atLast
        have isLast : last = segment := by simpa using found
        subst isLast
        refine ⟨parent, by simpa using reached, ?_⟩
        rw [← lengthAbove]
        exact List.getElem?_concat_length
      · rw [List.getElem?_eq_none (by simp; omega)] at found
        cases found

private theorem plain_name
    (wellFormed : tree.WellFormed) (listed : child ∈ tree.children parent)
    (named : tree.name? child = some name) :
    name ≠ "" ∧ '.' ∉ name.toList := by
  rcases hasObject_or_element?_of_mem_children listed with object | element
  · obtain ⟨fieldName, sameNamed, isFieldName⟩ :=
      wellFormed.fieldsNamed parent child object listed
    rw [named] at sameNamed
    rw [Option.some.inj sameNamed]
    exact ⟨isFieldName.notEmpty, isFieldName.noDot⟩
  · have namedWildcard := (wellFormed.elements parent child element).2.1
    rw [named] at namedWildcard
    rw [Option.some.inj namedWildcard]
    decide

/-- No segment of a field's path is empty or has a dot. -/
theorem plain_fullPath (wellFormed : tree.WellFormed) (id : NodeId) :
    ∀ segment ∈ (tree.fullPath id).segments, segment ≠ "" ∧ '.' ∉ segment.toList := by
  induction id using Nat.strongRecOn with
  | ind id hypothesis =>
      cases known : tree.parent? id with
      | none =>
          rw [fullPath_of_top known]
          intro segment listed
          cases listed
      | some parent =>
          obtain ⟨listed, earlier⟩ := wellFormed.mem_children_of_parent? known
          obtain ⟨name, named⟩ := exists_name_of_lt_size (lt_size_of_parent? known)
          rw [fullPath_of_parent known earlier named, Path.child]
          intro segment found
          rcases List.mem_append.1 found with above | last
          · exact hypothesis parent earlier segment above
          · rw [List.mem_singleton.1 last]
            exact wellFormed.plain_name listed named

/-- The path of a field is not that of the root. -/
theorem not_isRoot_fullPath
    (wellFormed : tree.WellFormed) {id : NodeId} (listed : id ∈ tree.fields) :
    (tree.fullPath id).isRoot = false := by
  have inside : id < tree.size := List.mem_range.1 (List.mem_of_mem_tail listed)
  rw [fields, ids, List.tail_range] at listed
  have notRoot : id ≠ root := Nat.ne_of_gt (List.mem_range'_1.1 listed).1
  obtain ⟨parent, known, earlier, _⟩ := wellFormed.listed id inside notRoot
  obtain ⟨name, named⟩ := exists_name_of_lt_size inside
  rw [fullPath_of_parent known earlier named]
  simp [Path.isRoot, Path.child]

private theorem noEmptySegment_fullPath (wellFormed : tree.WellFormed) (id : NodeId) :
    "" ∉ (tree.fullPath id).segments := by
  intro listed
  exact (wellFormed.plain_fullPath id "" listed).1 rfl

/-- The written path of a field is read back. -/
theorem parse_render_fullPath (wellFormed : tree.WellFormed) (id : NodeId) :
    Path.parse (tree.fullPath id).render = .ok (tree.fullPath id) :=
  Path.parse_render (wellFormed.noEmptySegment_fullPath id) fun segment listed =>
    (wellFormed.plain_fullPath id segment listed).2

end WellFormed

/-- In every tree that operations make, a node is found by its path and by nothing else but paths
that differ from it in segments that select elements. The names on the way from the root are a path,
so that no node is taken for the root for want of one, and different nodes have different paths, also
in writing. -/
theorem fullPath_inverts_resolve? (growths : List Growth) :
    let tree := empty.growAll growths
    (∀ id, tree.contains id = true →
      tree.resolve? (tree.fullPath id) = some id ∧
        Path.ofSegments (tree.namesDownTo id []) = .ok (tree.fullPath id) ∧
        (tree.fullPath id = Path.root → id = root) ∧
        Path.parse (tree.fullPath id).render = .ok (tree.fullPath id) ∧
        ∀ other, tree.contains other = true →
          (tree.fullPath other).render = (tree.fullPath id).render → other = id) ∧
      ∀ path id, tree.resolve? path = some id →
        (tree.fullPath id).length = path.length ∧
          ∀ place segment, path.segment? place = some segment →
            ∃ above,
              tree.resolve? (path.take place) = some above ∧
                (tree.fullPath id).segment? place =
                  some (if (tree.element? above).isSome then Path.wildcard else segment) := by
  intro tree
  have wellFormed : tree.WellFormed := wellFormed_empty.growAll growths
  have found (id : NodeId) (inside : tree.contains id = true) :
      tree.resolve? (tree.fullPath id) = some id := by
    obtain ⟨node, there⟩ := Option.isSome_iff_exists.1 inside
    exact wellFormed.resolve?_fullPath (lt_size_of_node? there)
  refine ⟨fun id inside => ⟨found id inside, ?_, ?_, ?_, ?_⟩, ?_⟩
  · rw [Path.ofSegments]
    exact if_neg (wellFormed.noEmptySegment_fullPath id)
  · intro isRoot
    have atRoot := found id inside
    rw [isRoot, resolve?_root] at atRoot
    exact (Option.some.inj atRoot).symm
  · exact wellFormed.parse_render_fullPath id
  · intro other otherInside sameText
    have samePath : tree.fullPath other = tree.fullPath id := by
      have read := wellFormed.parse_render_fullPath other
      rw [sameText, wellFormed.parse_render_fullPath id] at read
      exact (Except.ok.inj read).symm
    have sameNode := found other otherInside
    rw [samePath, found id inside] at sameNode
    exact (Option.some.inj sameNode).symm
  · intro path id resolved
    exact wellFormed.fullPath_of_resolve? resolved

/-- A field may be named by digits. The same kind of segment selects elements beneath an array. -/
example :
    let tree := empty.growAll [.objectArray root "lines", .leaf 2 "3" ⟨0, 0, .scalar .uid⟩]
    tree.resolve? ⟨["lines", "7", "3"]⟩ = some 3 ∧ (tree.fullPath 3).render = "lines.*.3" := by
  cbv

end Schemata.FieldTree

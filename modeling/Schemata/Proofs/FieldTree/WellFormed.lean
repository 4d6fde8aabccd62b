import Schemata.Proofs.FieldTree.Growth

/-!
# Well-formed trees

Parents and children tell of one relation between the nodes of a tree, the names beneath an
object tell its fields apart, and every array has its element. All this holds of a tree without
fields and is kept by whatever makes a tree grow.
-/
namespace Schemata.FieldTree

/-- What nodes say of their parents is what parents say of their children. Only the root has no
parent. -/
structure Linked (tree : FieldTree) : Prop where
  rootTop : tree.parent? root = none
  listed :
    ∀ id, id < tree.size → id ≠ root →
      ∃ parent,
        tree.parent? id = some parent ∧ parent < id ∧
          (tree.children parent).count id = 1 ∧
          ∀ other, other ≠ parent → id ∉ tree.children other
  backed :
    ∀ id child, child ∈ tree.children id → tree.parent? child = some id

/-- A tree of objects with fields of different names, and of arrays with an element each. -/
structure WellFormed (tree : FieldTree) : Prop extends Linked tree where
  rootObject : tree.hasObject root = true
  namesApart :
    ∀ id, tree.hasObject id = true → ((tree.children id).map tree.name?).Nodup
  fieldsNamed :
    ∀ id child, tree.hasObject id = true → child ∈ tree.children id →
      ∃ name, tree.name? child = some name ∧ IsFieldName name
  elements :
    ∀ id element, tree.element? id = some element →
      id < element ∧ tree.name? element = some Path.wildcard ∧
        (tree.hasLeaf element = true ∨ tree.hasObject element = true)

theorem wellFormed_empty :
    empty.WellFormed where
  rootTop := rfl
  listed id below notRoot := (notRoot (Nat.lt_one_iff.1 below)).elim
  backed id child found := by
    cases id <;> cases found
  rootObject := rfl
  namesApart id _ := by
    cases id <;> exact List.nodup_nil
  fieldsNamed id child _ found := by
    cases id <;> cases found
  elements id element found := by
    cases id <;> cases found

variable {tree : FieldTree} {owner : NodeId} {above node : FieldNode}
  {edit : FieldNode → FieldNode}

theorem Linked.lt_size_of_child
    (linked : tree.Linked) {id child : NodeId} (found : child ∈ tree.children id) :
    child < tree.size :=
  lt_size_of_parent? (linked.backed id child found)

/-! ## A node more -/

/-- A node may be put behind all others if it has no children. Its owner gains it as the last
child, and neither becomes an object nor ceases to be one. -/
structure Grafts
    (tree : FieldTree) (node : FieldNode) (owner : NodeId) (above : FieldNode)
    (edit : FieldNode → FieldNode) : Prop where
  found : tree.node? owner = some above
  owned : node.parent = some owner
  childless : node.children = []
  gained : (edit above).children = above.children ++ [tree.size]
  keepsName : (edit above).name = above.name
  keepsParent : (edit above).parent = above.parent
  keepsObject : (edit above).isObject = above.isObject

namespace Grafts

variable (grafts : Grafts tree node owner above edit)
include grafts

private theorem owner_lt_size : owner < tree.size :=
  lt_size_of_node? grafts.found

/-- A question that does not see the change of the owner has a new answer only about the new
node. -/
theorem query_eq
    {β : Type} (query : Option FieldNode → β)
    (unseen : query (some (edit above)) = query (some above)) (id : NodeId) :
    query ((tree.graft node owner edit).node? id) =
      if id = tree.size then query (some node) else query (tree.node? id) := by
  rw [query_graft query grafts.found, unseen]
  by_cases atOwner : id = owner
  · rw [if_pos atOwner, atOwner, grafts.found]
  · rw [if_neg atOwner]

private theorem parent?_eq (id : NodeId) :
    (tree.graft node owner edit).parent? id =
      if id = tree.size then some owner else tree.parent? id := by
  rw [← grafts.owned]
  exact grafts.query_eq (Option.bind · FieldNode.parent) grafts.keepsParent id

private theorem name?_eq (id : NodeId) :
    (tree.graft node owner edit).name? id =
      if id = tree.size then some node.name else tree.name? id :=
  grafts.query_eq (Option.map FieldNode.name) (congrArg some grafts.keepsName) id

private theorem hasObject_eq (id : NodeId) :
    (tree.graft node owner edit).hasObject id =
      if id = tree.size then node.isObject else tree.hasObject id :=
  grafts.query_eq (Option.any FieldNode.isObject) grafts.keepsObject id

private theorem hasLeaf_eq (id : NodeId) :
    (tree.graft node owner edit).hasLeaf id =
      if id = tree.size then node.isLeaf
      else if id = owner then (edit above).isLeaf
      else tree.hasLeaf id :=
  query_graft (Option.any FieldNode.isLeaf) grafts.found node edit id

private theorem element?_eq (id : NodeId) :
    (tree.graft node owner edit).element? id =
      if id = tree.size then none
      else if id = owner then (edit above).element?
      else tree.element? id := by
  rw [element?_eq_bind, query_graft (Option.bind · FieldNode.element?) grafts.found]
  simp only [Option.bind_some, FieldNode.element?_of_childless grafts.childless,
    element?_eq_bind tree]

private theorem children_eq (id : NodeId) :
    (tree.graft node owner edit).children id =
      if id = tree.size then []
      else if id = owner then tree.children owner ++ [tree.size]
      else tree.children id := by
  rw [children, query_graft (fun found => (found.map FieldNode.children).getD []) grafts.found]
  simp only [Option.map_some, Option.getD_some, grafts.childless, grafts.gained]
  rw [children, grafts.found]
  rfl

private theorem root_ne_size : root ≠ tree.size :=
  Nat.ne_of_lt (Nat.zero_lt_of_lt grafts.owner_lt_size)

private theorem new_listed (before : tree.Linked) :
    ∃ parent,
      (tree.graft node owner edit).parent? tree.size = some parent ∧ parent < tree.size ∧
        ((tree.graft node owner edit).children parent).count tree.size = 1 ∧
        ∀ other, other ≠ parent → tree.size ∉ (tree.graft node owner edit).children other := by
  have unlisted (other : NodeId) : tree.size ∉ tree.children other := by
    intro found
    exact Nat.lt_irrefl _ (before.lt_size_of_child found)
  have notNew : owner ≠ tree.size := Nat.ne_of_lt grafts.owner_lt_size
  refine ⟨owner, ?_, grafts.owner_lt_size, ?_, fun other notOwner => ?_⟩
  · rw [grafts.parent?_eq, if_pos rfl]
  · rw [grafts.children_eq, if_neg notNew, if_pos rfl, List.count_append,
      List.count_eq_zero.2 (unlisted owner), List.count_singleton_self]
  · rw [grafts.children_eq, if_neg notOwner]
    split
    · exact List.not_mem_nil
    · exact unlisted other

private theorem old_listed
    (before : tree.Linked) {id : NodeId} (old : id < tree.size) (notRoot : id ≠ root) :
    ∃ parent,
      (tree.graft node owner edit).parent? id = some parent ∧ parent < id ∧
        ((tree.graft node owner edit).children parent).count id = 1 ∧
        ∀ other, other ≠ parent → id ∉ (tree.graft node owner edit).children other := by
  obtain ⟨parent, known, earlier, once, nowhere⟩ := before.listed id old notRoot
  have notNew : id ≠ tree.size := Nat.ne_of_lt old
  have notNewParent : parent ≠ tree.size := Nat.ne_of_lt (Nat.lt_trans earlier old)
  refine ⟨parent, ?_, earlier, ?_, fun other notParent => ?_⟩
  · rw [grafts.parent?_eq, if_neg notNew, known]
  · rw [grafts.children_eq, if_neg notNewParent]
    split
    · next atOwner =>
        have notLast : [tree.size].count id = 0 := by
          rw [List.count_eq_zero, List.mem_singleton]
          exact notNew
        rw [List.count_append, ← atOwner, once, notLast]
    · exact once
  · rw [grafts.children_eq]
    split
    · exact List.not_mem_nil
    · split
      · next atOwner =>
          rw [List.mem_append, ← atOwner, List.mem_singleton]
          exact not_or.2 ⟨nowhere other notParent, notNew⟩
      · exact nowhere other notParent

theorem backed
    (before : tree.Linked) (id child : NodeId)
    (found : child ∈ (tree.graft node owner edit).children id) :
    (tree.graft node owner edit).parent? child = some id := by
  have old (parent : NodeId) (listed : child ∈ tree.children parent) :
      (tree.graft node owner edit).parent? child = some parent := by
    rw [grafts.parent?_eq, if_neg (Nat.ne_of_lt (before.lt_size_of_child listed))]
    exact before.backed parent child listed
  rw [grafts.children_eq] at found
  split at found
  · cases found
  · split at found
    · next atOwner =>
        rcases List.mem_append.1 found with listed | last
        · rw [atOwner]
          exact old owner listed
        · rw [grafts.parent?_eq, if_pos (List.mem_singleton.1 last), atOwner]
    · exact old id found

private theorem linked (before : tree.Linked) :
    (tree.graft node owner edit).Linked where
  rootTop := by
    rw [grafts.parent?_eq, if_neg grafts.root_ne_size]
    exact before.rootTop
  listed id below notRoot := by
    rw [size_graft] at below
    rcases Nat.lt_succ_iff_lt_or_eq.1 below with old | rfl
    · exact grafts.old_listed before old notRoot
    · exact grafts.new_listed before
  backed := grafts.backed before

theorem rootObject (before : tree.WellFormed) :
    (tree.graft node owner edit).hasObject root = true := by
  rw [grafts.hasObject_eq, if_neg grafts.root_ne_size]
  exact before.rootObject

/-- The names beneath an object still tell its fields apart if the new name is new to its
owner. -/
theorem namesApart
    (before : tree.WellFormed)
    (fresh : tree.hasObject owner = true → tree.child? owner node.name = none)
    (id : NodeId) (object : (tree.graft node owner edit).hasObject id = true) :
    (((tree.graft node owner edit).children id).map
      (tree.graft node owner edit).name?).Nodup := by
  have old (parent : NodeId) :
      (tree.children parent).map (tree.graft node owner edit).name? =
        (tree.children parent).map tree.name? := by
    apply List.map_congr_left
    intro child listed
    rw [grafts.name?_eq, if_neg (Nat.ne_of_lt (before.lt_size_of_child listed))]
  rw [grafts.hasObject_eq] at object
  rw [grafts.children_eq]
  by_cases new : id = tree.size
  · rw [if_pos new]
    exact List.nodup_nil
  · rw [if_neg new] at object ⊢
    by_cases atOwner : id = owner
    · rw [atOwner] at object
      rw [if_pos atOwner, List.map_append, old, List.map_singleton, grafts.name?_eq,
        if_pos rfl, List.nodup_append]
      refine ⟨before.namesApart owner object, by simp, ?_⟩
      intro name listed newName same sameName
      obtain ⟨child, found, rfl⟩ := List.mem_map.1 listed
      rw [List.mem_singleton.1 same] at sameName
      exact child?_eq_none_iff.1 (fresh object) child found sameName
    · rw [if_neg atOwner, old]
      exact before.namesApart id object

theorem fieldsNamed
    (before : tree.WellFormed)
    (named : tree.hasObject owner = true → IsFieldName node.name)
    (id child : NodeId) (object : (tree.graft node owner edit).hasObject id = true)
    (listed : child ∈ (tree.graft node owner edit).children id) :
    ∃ name,
      (tree.graft node owner edit).name? child = some name ∧ IsFieldName name := by
  rw [grafts.hasObject_eq] at object
  rw [grafts.children_eq] at listed
  rw [grafts.name?_eq]
  have old (parent : NodeId) (found : child ∈ tree.children parent) :
      (if child = tree.size then some node.name else tree.name? child) = tree.name? child :=
    if_neg (Nat.ne_of_lt (before.lt_size_of_child found))
  by_cases new : id = tree.size
  · rw [if_pos new] at listed
    cases listed
  · rw [if_neg new] at object listed
    by_cases atOwner : id = owner
    · rw [atOwner] at object
      rw [if_pos atOwner] at listed
      rcases List.mem_append.1 listed with found | last
      · rw [old owner found]
        exact before.fieldsNamed owner child object found
      · rw [if_pos (List.mem_singleton.1 last)]
        exact ⟨node.name, rfl, named object⟩
    · rw [if_neg atOwner] at listed
      rw [old id listed]
      exact before.fieldsNamed id child object listed

/-- An element is still one if, in case that it is the owner, the owner is still a leaf or an
object. -/
theorem element_kept
    (before : tree.WellFormed)
    (kind :
      tree.name? owner = some Path.wildcard →
        (edit above).isLeaf = true ∨ (edit above).isObject = true)
    {id element : NodeId} (named : tree.element? id = some element) :
    id < element ∧
      (tree.graft node owner edit).name? element = some Path.wildcard ∧
      ((tree.graft node owner edit).hasLeaf element = true ∨
        (tree.graft node owner edit).hasObject element = true) := by
  obtain ⟨later, name, leafOrObject⟩ := before.elements id element named
  have notNew : element ≠ tree.size :=
    Nat.ne_of_lt (before.lt_size_of_child (mem_children_of_element? named))
  refine ⟨later, ?_, ?_⟩
  · rw [grafts.name?_eq, if_neg notNew, name]
  · rw [grafts.hasLeaf_eq, grafts.hasObject_eq, if_neg notNew, if_neg notNew]
    by_cases atOwner : element = owner
    · subst atOwner
      rw [if_pos rfl, hasObject, grafts.found, Option.any_some, ← grafts.keepsObject]
      exact kind name
    · rw [if_neg atOwner]
      exact leafOrObject

end Grafts

private theorem grafts_attach
    {shape : NodeShape} (found : tree.node? owner = some above)
    (object : above.isObject = true) (name : String) (bare : Bare shape) :
    Grafts tree ⟨name, some owner, shape, ∅⟩ owner above (addChild tree.size) where
  found := found
  owned := rfl
  childless := by cases bare <;> rfl
  gained := children_addChild object tree.size
  keepsName := name_addChild tree.size above
  keepsParent := parent_addChild tree.size above
  keepsObject := isObject_addChild tree.size above

theorem WellFormed.attach
    {name : String} {shape : NodeShape} (before : tree.WellFormed)
    (addable : tree.Addable owner name) (bare : Bare shape) :
    (tree.attach owner name shape).WellFormed := by
  obtain ⟨above, found, object⟩ := exists_node_of_any addable.beneathObject
  have grafts := grafts_attach found object name bare
  refine ⟨grafts.linked before.toLinked, ?_, ?_, ?_, ?_⟩
  · exact grafts.rootObject before
  · exact grafts.namesApart before fun _ => addable.fresh
  · exact grafts.fieldsNamed before fun _ => addable.named
  · intro id element named
    have namedBefore : tree.element? id = some element := by
      rw [FieldTree.attach, ← graft, grafts.element?_eq, element?_addChild] at named
      split at named
      · cases named
      · split at named
        · next atOwner => rwa [atOwner, element?_eq_bind, found]
        · exact named
    refine grafts.element_kept before (fun _ => Or.inr ?_) namedBefore
    rwa [isObject_addChild]

private theorem grafts_attachElement
    {element : NodeShape} (found : tree.node? owner = some above)
    (leaf : above.isLeaf = true) (bare : Bare element) :
    Grafts tree ⟨Path.wildcard, some owner, element, ∅⟩ owner above
      fun node => { node with shape := .array tree.size } where
  found := found
  owned := rfl
  childless := by cases bare <;> rfl
  gained := by rw [FieldNode.children_of_isLeaf leaf]; rfl
  keepsName := rfl
  keepsParent := rfl
  keepsObject := (FieldNode.isObject_of_isLeaf leaf).symm

/-- A leaf that is no element itself may become an array with a new element. -/
theorem WellFormed.attachElement
    {element : NodeShape} (before : tree.WellFormed) (leaf : tree.hasLeaf owner = true)
    (notElement : tree.name? owner ≠ some Path.wildcard) (bare : Bare element) :
    (tree.attachElement owner element).WellFormed := by
  obtain ⟨above, found, isLeaf⟩ := exists_node_of_any leaf
  have grafts := grafts_attachElement found isLeaf bare
  have notObject : tree.hasObject owner = false := by
    rw [hasObject, found, Option.any_some, FieldNode.isObject_of_isLeaf isLeaf]
  refine ⟨grafts.linked before.toLinked, grafts.rootObject before, ?_, ?_, ?_⟩
  · refine grafts.namesApart before fun object => ?_
    rw [notObject] at object
    cases object
  · refine grafts.fieldsNamed before fun object => ?_
    rw [notObject] at object
    cases object
  · intro id below named
    rw [FieldTree.attachElement, ← graft, grafts.element?_eq] at named
    split at named
    · cases named
    · split at named
      · next atOwner =>
          cases named
          subst atOwner
          refine ⟨grafts.owner_lt_size, ?_, ?_⟩
          · exact (grafts.name?_eq tree.size).trans (if_pos rfl)
          · have leafThere := (grafts.hasLeaf_eq tree.size).trans (if_pos rfl)
            have objectThere := (grafts.hasObject_eq tree.size).trans (if_pos rfl)
            cases bare with
            | leaf type => exact Or.inl leafThere
            | object => exact Or.inr objectThere
      · exact grafts.element_kept before (fun name => (notElement name).elim) named

theorem node?_attach
    (found : tree.node? owner = some above) (name : String) (shape : NodeShape) (id : NodeId) :
    (tree.attach owner name shape).node? id =
      if id = tree.size then some ⟨name, some owner, shape, ∅⟩
      else if id = owner then some (addChild tree.size above)
      else tree.node? id :=
  query_graft (fun node? => node?) found _ _ id

theorem size_attach (tree : FieldTree) (owner : NodeId) (name : String) (shape : NodeShape) :
    (tree.attach owner name shape).size = tree.size + 1 :=
  size_graft tree _ owner _

/-- Whatever stands in for an array until it has its element, the same array comes of it. -/
theorem attachArray_eq
    {name : String} {element : NodeShape} (found : tree.node? owner = some above)
    (shape : NodeShape) :
    tree.attachArray owner name element =
      (tree.attach owner name shape).attachElement tree.size element := by
  apply ext_node?
  intro id
  have stands (shape : NodeShape) :
      (tree.attach owner name shape).node? tree.size = some ⟨name, some owner, shape, ∅⟩ := by
    rw [node?_attach found name shape, if_pos rfl]
  have grafted (shape : NodeShape) :=
    query_graft (fun node? => node?) (stands shape)
      ⟨Path.wildcard, some tree.size, element, ∅⟩
      (fun node => { node with shape := .array (tree.size + 1) }) id
  rw [attachArray, attachElement, attachElement, size_attach, size_attach, ← graft, ← graft,
    grafted, grafted, size_attach, size_attach, node?_attach found, node?_attach found]
  by_cases new : id = tree.size
  · rw [if_pos new, if_pos new]
  · rw [if_neg new, if_neg new, if_neg new, if_neg new]

/-- A leaf that stands in for an array until that has its element. -/
def standIn : NodeShape :=
  .leaf ⟨0, 0, .scalar .string⟩ []

private theorem bare_standIn : Bare standIn :=
  .leaf _

theorem WellFormed.attachArray
    {name : String} {element : NodeShape} (before : tree.WellFormed)
    (addable : tree.Addable owner name) (bare : Bare element) :
    (tree.attachArray owner name element).WellFormed := by
  obtain ⟨above, found, object⟩ := exists_node_of_any addable.beneathObject
  have stands := node?_attach found name standIn tree.size
  rw [if_pos rfl] at stands
  have leaf : (tree.attach owner name standIn).hasLeaf tree.size = true := by
    rw [hasLeaf, stands]
    rfl
  have notElement :
      (tree.attach owner name standIn).name? tree.size ≠ some Path.wildcard := by
    rw [name?, stands]
    exact fun same => addable.named.notWildcard (Option.some.inj same)
  -- With its placeholder the array would break the invariant, and so it is a leaf at first.
  have attached := before.attach addable bare_standIn
  rw [attachArray_eq found standIn]
  exact attached.attachElement leaf notElement bare

/-! ## A node refined -/

theorem Refines.children
    (refines : Refines edit) (node : FieldNode) :
    (edit node).children = node.children := by
  rcases refines.shape node with same | ⟨leafAfter, leafBefore⟩
  · rw [FieldNode.children, same, ← FieldNode.children]
  · rw [FieldNode.children_of_isLeaf leafAfter, FieldNode.children_of_isLeaf leafBefore]

theorem Refines.isObject
    (refines : Refines edit) (node : FieldNode) :
    (edit node).isObject = node.isObject := by
  rcases refines.shape node with same | ⟨leafAfter, leafBefore⟩
  · rw [FieldNode.isObject, same, ← FieldNode.isObject]
  · rw [FieldNode.isObject_of_isLeaf leafAfter, FieldNode.isObject_of_isLeaf leafBefore]

theorem Refines.isLeaf
    (refines : Refines edit) (node : FieldNode) :
    (edit node).isLeaf = node.isLeaf := by
  rcases refines.shape node with same | ⟨leafAfter, leafBefore⟩
  · rw [FieldNode.isLeaf, same, ← FieldNode.isLeaf]
  · rw [leafAfter, leafBefore]

theorem Refines.element?
    (refines : Refines edit) (node : FieldNode) :
    (edit node).element? = node.element? := by
  rcases refines.shape node with same | ⟨leafAfter, leafBefore⟩
  · rw [FieldNode.element?, same, ← FieldNode.element?]
  · rw [FieldNode.element?_of_childless (FieldNode.children_of_isLeaf leafAfter),
      FieldNode.element?_of_childless (FieldNode.children_of_isLeaf leafBefore)]

/-- Nothing that is asked of a well-formed tree sees a refinement. -/
theorem WellFormed.change
    (before : tree.WellFormed) (refines : Refines edit) (id : NodeId) :
    (tree.change id edit).WellFormed := by
  have parents : (tree.change id edit).parent? = tree.parent? :=
    funext (query_change (Option.bind · FieldNode.parent) refines.parent tree id)
  have names : (tree.change id edit).name? = tree.name? :=
    funext (query_change (Option.map FieldNode.name)
      (fun node => congrArg some (refines.name node)) tree id)
  have objects : (tree.change id edit).hasObject = tree.hasObject :=
    funext (query_change (Option.any FieldNode.isObject) refines.isObject tree id)
  have leaves : (tree.change id edit).hasLeaf = tree.hasLeaf :=
    funext (query_change (Option.any FieldNode.isLeaf) refines.isLeaf tree id)
  have children : (tree.change id edit).children = tree.children :=
    funext (query_change (fun found => (found.map FieldNode.children).getD [])
      refines.children tree id)
  have elements : (tree.change id edit).element? = tree.element? := by
    funext other
    rw [element?_eq_bind, element?_eq_bind]
    exact query_change (Option.bind · FieldNode.element?) refines.element? tree id other
  refine ⟨⟨?_, ?_, ?_⟩, ?_, ?_, ?_, ?_⟩
  · rw [parents]
    exact before.rootTop
  · rw [parents, children, size_change]
    exact before.listed
  · rw [parents, children]
    exact before.backed
  · rw [objects]
    exact before.rootObject
  · rw [objects, children, names]
    exact before.namesApart
  · rw [objects, children, names]
    exact before.fieldsNamed
  · rw [elements, names, leaves, objects]
    exact before.elements

theorem WellFormed.grow (before : tree.WellFormed) (growth : Growth) :
    (tree.grow growth).WellFormed := by
  rcases grow_cases tree growth with
    same | ⟨parent, name, shape, addable, bare, grown⟩ |
      ⟨parent, name, element, addable, bare, grown⟩ | ⟨id, edit, refines, grown⟩
  · rw [same]
    exact before
  · rw [grown]
    exact before.attach addable bare
  · rw [grown]
    exact before.attachArray addable bare
  · rw [grown]
    exact before.change refines id

theorem WellFormed.growAll (before : tree.WellFormed) (growths : List Growth) :
    (tree.growAll growths).WellFormed := by
  induction growths generalizing tree with
  | nil => exact before
  | cons growth rest hypothesis => exact hypothesis (before.grow growth)

/-- Whatever operations a tree is made by, whether they succeed or fail, it is well-formed. -/
theorem wellFormed_of_operations (growths : List Growth) :
    (empty.growAll growths).WellFormed :=
  wellFormed_empty.growAll growths

end Schemata.FieldTree

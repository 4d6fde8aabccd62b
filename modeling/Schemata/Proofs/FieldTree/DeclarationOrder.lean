import Mathlib.Data.List.Perm.Basic
import Schemata.FieldTree.Walk
import Schemata.Proofs.FieldTree.WellFormed

/-!
# Recursion over a tree

Children stand behind their parents, and so something can be made of every node from what is made of
its children. The nodes at and beneath a node are listed this way, a node before its children; the
walk with a pending list meets the same nodes in the same order, and every node of the tree once.
-/
namespace Schemata.FieldTree

variable {tree : FieldTree} {id parent : NodeId}

/-- The children that stand in the tree and behind the node. -/
def laterChildren (tree : FieldTree) (id : NodeId) : List NodeId :=
  (tree.children id).filter fun child => id < child && child < tree.size

private theorem lt_of_mem_laterChildren
    {child : NodeId} (listed : child ∈ tree.laterChildren id) :
    id < child ∧ child < tree.size := by
  simpa using (List.mem_filter.1 listed).2

/-- Makes something of a node from what is made of its children. -/
def fold {α : Type} (tree : FieldTree) (combine : NodeId → List (NodeId × α) → α)
    (id : NodeId) : α :=
  combine id ((tree.laterChildren id).attach.map fun child =>
    (child.1, tree.fold combine child.1))
termination_by tree.size - id
decreasing_by
  obtain ⟨later, inside⟩ := lt_of_mem_laterChildren child.2
  exact Nat.sub_lt_sub_left (Nat.lt_trans later inside) later

theorem Linked.lt_of_child
    (linked : tree.Linked) {child : NodeId} (listed : child ∈ tree.children id) :
    id < child := by
  have known := linked.backed id child listed
  have below := lt_size_of_parent? known
  have notRoot : child ≠ root := by
    intro atRoot
    rw [atRoot, linked.rootTop] at known
    cases known
  obtain ⟨other, knownOther, earlier, _⟩ := linked.listed child below notRoot
  rw [known] at knownOther
  rwa [Option.some.inj knownOther]

theorem Linked.laterChildren_eq (linked : tree.Linked) (id : NodeId) :
    tree.laterChildren id = tree.children id := by
  apply List.filter_eq_self.2
  intro child listed
  have later := linked.lt_of_child listed
  have inside := linked.lt_size_of_child listed
  simp [later, inside]

theorem Linked.fold_eq
    (linked : tree.Linked) {α : Type} (combine : NodeId → List (NodeId × α) → α)
    (id : NodeId) :
    tree.fold combine id =
      combine id ((tree.children id).map fun child => (child, tree.fold combine child)) := by
  have children :
      (tree.laterChildren id).attach.map (fun child => (child.1, tree.fold combine child.1)) =
        (tree.children id).map fun child => (child, tree.fold combine child) := by
    rw [← linked.laterChildren_eq]
    exact List.attach_map_val (f := fun child => (child, tree.fold combine child))
  rw [fold, children]

/-- What holds of a node if it holds of all nodes behind it holds of every node. -/
theorem induction_from_back
    {motive : NodeId → Prop}
    (step :
      ∀ id, (∀ later, id < later → later < tree.size → motive later) → motive id)
    (id : NodeId) :
    motive id := by
  have upTo (distance : Nat) : ∀ id, tree.size - id ≤ distance → motive id := by
    induction distance with
    | zero =>
        intro id near
        apply step
        intro later behind inside
        omega
    | succ distance hypothesis =>
        intro id near
        apply step
        intro later behind inside
        apply hypothesis
        omega
  exact upTo (tree.size - id) id (Nat.le_refl _)

/-- The nodes at and beneath a node, each before its children. -/
def subtree (tree : FieldTree) (id : NodeId) : List NodeId :=
  tree.fold (fun id parts => id :: parts.flatMap Prod.snd) id

theorem Linked.subtree_eq (linked : tree.Linked) (id : NodeId) :
    tree.subtree id = id :: (tree.children id).flatMap tree.subtree := by
  rw [subtree, linked.fold_eq, List.flatMap_map]
  rfl

/-- The walk meets the pending nodes with all that is beneath them, if it has a step for each. -/
theorem Linked.walk_eq
    (linked : tree.Linked) {steps : Nat} {pending : List NodeId}
    (enough : (pending.flatMap tree.subtree).length ≤ steps) :
    tree.walk steps pending = pending.flatMap tree.subtree := by
  induction steps generalizing pending with
  | zero =>
      have none : pending.flatMap tree.subtree = [] :=
        List.length_eq_zero_iff.1 (Nat.le_zero.1 enough)
      rw [walk, none]
  | succ steps hypothesis =>
      cases pending with
      | nil => rfl
      | cons id pending =>
          have opened :
              (id :: pending).flatMap tree.subtree =
                id :: (tree.children id ++ pending).flatMap tree.subtree := by
            rw [List.flatMap_cons, linked.subtree_eq, List.cons_append, List.flatMap_append]
          rw [opened, List.length_cons] at enough
          rw [opened, walk, hypothesis (Nat.le_of_succ_le_succ enough)]

private theorem count_cons_eq_add (id : NodeId) (rest : List NodeId) (other : NodeId) :
    (id :: rest).count other = [id].count other + rest.count other := by
  rw [← List.count_append, List.singleton_append]

/-- Whatever is beneath a node is a child of a node that is there too. -/
theorem Linked.count_subtree (linked : tree.Linked) (id other : NodeId) :
    (tree.subtree id).count other =
      [id].count other + ((tree.subtree id).flatMap tree.children).count other := by
  induction id using tree.induction_from_back with
  | step id hypothesis =>
      have beneath (ids : List NodeId) (behind : ∀ later ∈ ids, id < later ∧ later < tree.size) :
          (ids.flatMap tree.subtree).count other =
            ids.count other + ((ids.flatMap tree.subtree).flatMap tree.children).count other := by
        induction ids with
        | nil => rfl
        | cons first rest inRest =>
            obtain ⟨later, inside⟩ := behind first List.mem_cons_self
            have inFirst := hypothesis first later inside
            have others := inRest fun next listed => behind next (List.mem_cons_of_mem _ listed)
            simp only [List.flatMap_cons, List.flatMap_append, List.count_append]
            rw [count_cons_eq_add first rest]
            omega
      have children := beneath (tree.children id) fun child listed =>
        ⟨linked.lt_of_child listed, linked.lt_size_of_child listed⟩
      rw [linked.subtree_eq, List.flatMap_cons, count_cons_eq_add, List.count_append, children]

/-- A node is listed among the children of some nodes as often as its parent is among the nodes. -/
theorem Linked.count_flatMap_children
    (linked : tree.Linked) (known : tree.parent? id = some parent) (ids : List NodeId) :
    (ids.flatMap tree.children).count id = ids.count parent := by
  have notRoot : id ≠ root := by
    intro atRoot
    rw [atRoot, linked.rootTop] at known
    cases known
  obtain ⟨other, knownOther, _, once, nowhere⟩ :=
    linked.listed id (lt_size_of_parent? known) notRoot
  rw [known] at knownOther
  cases knownOther
  induction ids with
  | nil => rfl
  | cons first rest hypothesis =>
      rw [List.flatMap_cons, List.count_append, hypothesis, List.count_cons]
      by_cases same : first = parent
      · simp [same, once, Nat.add_comm]
      · simp [same, List.count_eq_zero.2 (nowhere first same)]

theorem Linked.count_subtree_root
    (linked : tree.Linked) (inside : id < tree.size) :
    (tree.subtree root).count id = 1 := by
  induction id using Nat.strongRecOn with
  | ind id hypothesis =>
      rw [linked.count_subtree]
      by_cases atRoot : id = root
      · have notChild : id ∉ (tree.subtree root).flatMap tree.children := by
          intro listed
          obtain ⟨above, _, child⟩ := List.mem_flatMap.1 listed
          have known := linked.backed above id child
          rw [atRoot, linked.rootTop] at known
          cases known
        rw [List.count_eq_zero.2 notChild, atRoot]
        exact congrArg (· + 0) List.count_singleton_self
      · obtain ⟨parent, known, earlier, _⟩ := linked.listed id inside atRoot
        have above := hypothesis parent earlier (Nat.lt_trans earlier inside)
        have notHere : [root].count id = 0 := by
          rw [List.count_eq_zero, List.mem_singleton]
          exact atRoot
        rw [linked.count_flatMap_children known, above, notHere]

theorem WellFormed.root_lt_size (wellFormed : tree.WellFormed) : root < tree.size := by
  obtain ⟨node, found, _⟩ := exists_node_of_any wellFormed.rootObject
  exact lt_size_of_node? found

/-- The nodes at and beneath the root are the nodes of the tree, each of them once. -/
theorem WellFormed.subtree_root_perm (wellFormed : tree.WellFormed) :
    (tree.subtree root).Perm tree.ids := by
  rw [List.perm_iff_count]
  intro id
  by_cases inside : id < tree.size
  · have listed : id ∈ tree.ids := List.mem_range.2 inside
    have once : tree.ids.Nodup := List.nodup_range
    rw [wellFormed.count_subtree_root inside, once.count, if_pos listed]
  · have notListed : id ∉ tree.ids := fun listed => inside (List.mem_range.1 listed)
    have notRoot : id ∉ [root] := by
      intro atRoot
      rw [List.mem_singleton.1 atRoot] at inside
      exact inside wellFormed.root_lt_size
    have notChild : id ∉ (tree.subtree root).flatMap tree.children := by
      intro listed
      obtain ⟨above, _, child⟩ := List.mem_flatMap.1 listed
      exact inside (wellFormed.lt_size_of_child child)
    rw [wellFormed.count_subtree, List.count_eq_zero.2 notRoot, List.count_eq_zero.2 notChild,
      List.count_eq_zero.2 notListed]

theorem WellFormed.ids_eq_cons (wellFormed : tree.WellFormed) :
    tree.ids = root :: tree.fields := by
  obtain ⟨more, size⟩ := Nat.exists_eq_succ_of_ne_zero (Nat.ne_of_gt wellFormed.root_lt_size)
  rw [fields, ids, size, List.range_succ_eq_map]
  rfl

/-- The fields beneath the root in declaration order are all fields, each of them once. -/
theorem WellFormed.flatMap_subtree_perm (wellFormed : tree.WellFormed) :
    ((tree.children root).flatMap tree.subtree).Perm tree.fields := by
  have all := wellFormed.subtree_root_perm
  rw [wellFormed.subtree_eq, wellFormed.ids_eq_cons] at all
  exact all.cons_inv

theorem WellFormed.declarationOrder_eq (wellFormed : tree.WellFormed) :
    tree.declarationOrder = (tree.children root).flatMap tree.subtree := by
  apply wellFormed.walk_eq
  have count := wellFormed.flatMap_subtree_perm.length_eq
  rw [count, fields, List.length_tail, ids, List.length_range]
  exact Nat.sub_le _ _

/-- The walk meets every field once. -/
theorem WellFormed.declarationOrder_perm (wellFormed : tree.WellFormed) :
    tree.declarationOrder.Perm tree.fields := by
  rw [wellFormed.declarationOrder_eq]
  exact wellFormed.flatMap_subtree_perm

theorem isRequired_iff :
    tree.isRequired id = true ↔
      ∃ type constraints,
        tree.shape? id = some (.leaf type constraints) ∧ .required ∈ constraints := by
  unfold isRequired shape?
  cases tree.node? id with
  | none => simp
  | some node =>
      cases shape : node.shape <;>
        simp [FieldNode.isRequired, FieldNode.constraints, shape]

/-- The required nodes in declaration order are all required nodes, each of them once. -/
theorem WellFormed.required_once (wellFormed : tree.WellFormed) :
    (tree.declarationOrder.filter tree.isRequired).Nodup ∧
      ∀ id, id ∈ tree.declarationOrder.filter tree.isRequired ↔ tree.isRequired id = true := by
  have order := wellFormed.declarationOrder_perm
  have all : (root :: tree.fields).Nodup := by
    rw [← wellFormed.ids_eq_cons]
    exact List.nodup_range
  refine ⟨(order.nodup_iff.2 (List.nodup_cons.1 all).2).filter _, fun id => ?_⟩
  rw [List.mem_filter, order.mem_iff]
  refine ⟨And.right, fun required => ⟨?_, required⟩⟩
  obtain ⟨type, constraints, shape, _⟩ := isRequired_iff.1 required
  have listed : id ∈ tree.ids := List.mem_range.2 (lt_size_of_shape? shape)
  rw [wellFormed.ids_eq_cons] at listed
  rcases List.mem_cons.1 listed with atRoot | isField
  · obtain ⟨children, object⟩ := hasObject_iff.1 wellFormed.rootObject
    rw [atRoot, object] at shape
    cases shape
  · exact isField

end Schemata.FieldTree

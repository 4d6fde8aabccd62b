import Schemata.Proofs.FieldTree.Patterns
import Schemata.Proofs.Projector.Flattening
import Schemata.Proofs.Projector.LastExclusion

/-!
# Projecting twice

A projection drops items of arrays, and those that stay get other indexes. Where no rule and no field
names an index, a path stands for the same thing whatever the indexes in it are, so that the
projection of a projected document is that document.
-/
namespace Schemata

namespace Path

/-- No segment of the path is an index. -/
def NamesNoIndex (path : Path) : Prop :=
  ∀ segment ∈ path.segments, indexOf? segment = none

/-- Two segments are the same, or both are indexes. -/
def SegmentsAlike (left right : String) : Prop :=
  left = right ∨ (indexOf? left).isSome = true ∧ (indexOf? right).isSome = true

/-- Two paths have the same segments, up to the values of indexes. -/
def AlikeUpToIndexes (left right : Path) : Prop :=
  List.Forall₂ SegmentsAlike left.segments right.segments

theorem AlikeUpToIndexes.child
    {left right : Path} {segment other : String} (alike : left.AlikeUpToIndexes right)
    (last : SegmentsAlike segment other) :
    (left.child segment).AlikeUpToIndexes (right.child other) :=
  List.rel_append alike (.cons last .nil)

private theorem segmentsAlike_repr {index other : Nat}
    (small : index < UInt64.size) (otherSmall : other < UInt64.size) :
    SegmentsAlike index.repr other.repr := by
  refine Or.inr ?_
  rw [indexOf?_repr small, indexOf?_repr otherSmall]
  exact ⟨rfl, rfl⟩

private theorem ne_of_indexOf?_isSome {segment name : String}
    (index : (indexOf? segment).isSome = true) (noIndex : indexOf? name = none) :
    segment ≠ name := by
  rintro rfl
  rw [noIndex] at index
  cases index

private theorem indexOf?_wildcard : indexOf? wildcard = none := by
  decide

private theorem selectsElement_eq_of_alike {left right : String}
    (alike : SegmentsAlike left right) :
    selectsElement left = selectsElement right := by
  rcases alike with rfl | ⟨leftIndex, rightIndex⟩
  · rfl
  · simp [selectsElement, leftIndex, rightIndex]

variable {left right : List String} {pattern : List String}

/-- A segment of a pattern that is no index fits every index or none. -/
theorem segmentFits_eq_of_alike {left right pattern : String}
    (alike : SegmentsAlike left right) (noIndex : indexOf? pattern = none) :
    segmentFits left pattern = segmentFits right pattern := by
  rcases alike with rfl | ⟨leftIndex, rightIndex⟩
  · rfl
  · simp [segmentFits, ne_of_indexOf?_isSome leftIndex noIndex,
      ne_of_indexOf?_isSome rightIndex noIndex,
      ne_of_indexOf?_isSome leftIndex indexOf?_wildcard,
      ne_of_indexOf?_isSome rightIndex indexOf?_wildcard]

/-- A pattern that names no index fits two rows of segments that are alike in the same ways. -/
theorem fits_eq_of_alike
    (alike : List.Forall₂ SegmentsAlike left right)
    (noIndex : ∀ segment ∈ pattern, indexOf? segment = none) :
    segmentsFit left pattern = segmentsFit right pattern ∧
      segmentsLeadTo left pattern = segmentsLeadTo right pattern ∧
      segmentsLieBeneath left pattern = segmentsLieBeneath right pattern := by
  induction alike generalizing pattern with
  | nil => exact ⟨rfl, rfl, rfl⟩
  | cons first _ hypothesis =>
      cases pattern with
      | nil => exact ⟨rfl, rfl, rfl⟩
      | cons named more =>
          rw [List.forall_mem_cons] at noIndex
          obtain ⟨sameFit, sameLead, sameBeneath⟩ := hypothesis noIndex.2
          simp only [segmentsFit, segmentsLeadTo, segmentsLieBeneath,
            segmentFits_eq_of_alike first noIndex.1, sameFit, sameLead, sameBeneath, and_self]

end Path

namespace FieldTree

variable {tree : FieldTree}

/-- No name of the tree is an index. -/
def NamesNoIndex (tree : FieldTree) : Prop :=
  ∀ id name, tree.name? id = some name → Path.indexOf? name = none

private theorem child?_of_index
    (noIndex : tree.NamesNoIndex) {segment : String}
    (index : (Path.indexOf? segment).isSome = true) (id : NodeId) :
    tree.child? id segment = none := by
  apply child?_eq_none_iff.2
  intro child _ named
  exact Path.ne_of_indexOf?_isSome index (noIndex child segment named) rfl

private theorem step?_eq_of_alike
    (noIndex : tree.NamesNoIndex) {left right : String}
    (alike : Path.SegmentsAlike left right) (id : NodeId) :
    tree.step? id left = tree.step? id right := by
  have selects := Path.selectsElement_eq_of_alike alike
  rcases alike with rfl | ⟨leftIndex, rightIndex⟩
  · rfl
  · unfold step?
    simp only [selects, child?_of_index noIndex leftIndex, child?_of_index noIndex rightIndex,
      ite_self]

private theorem follow?_eq_of_alike
    (noIndex : tree.NamesNoIndex) {left right : List String}
    (alike : List.Forall₂ Path.SegmentsAlike left right) (id : NodeId) :
    tree.follow? id left = tree.follow? id right := by
  induction alike generalizing id with
  | nil => rfl
  | cons first _ hypothesis =>
      rw [follow?_cons, follow?_cons, step?_eq_of_alike noIndex first]
      simp only [hypothesis]

/-- Paths that are alike up to indexes lead to the same node. -/
theorem resolve?_eq_of_alike
    (noIndex : tree.NamesNoIndex) {left right : Path} (alike : left.AlikeUpToIndexes right) :
    tree.resolve? left = tree.resolve? right :=
  follow?_eq_of_alike noIndex alike root

end FieldTree

/-- The projection is made of field rules only, in lists of any depth, and none of them names an
index. -/
def Projection.NamesNoIndex (projection : Projection) : Prop :=
  ∀ rule ∈ projection.leaves, ∃ target included recursive,
    rule = .field target included recursive ∧ target.NamesNoIndex

namespace Projector

variable {projector : Projector} {tree : FieldTree}

/-- The projector is made of field rules only, and none of them names an index. -/
def NamesNoIndex (projector : Projector) : Prop :=
  ∀ rule ∈ projector.leaves, ∃ target included recursive,
    rule = .field target included recursive ∧ target.NamesNoIndex

private theorem namesNoIndex_of_compile
    {projection : Projection} {context : NodeId} (noIndex : projection.NamesNoIndex)
    (compiled : compile tree projection .root context = .ok projector) :
    projector.NamesNoIndex := by
  intro item listed
  obtain ⟨rule, declared, compiledRule⟩ := (mem_leaves_iff_of_compile compiled).1 listed
  obtain ⟨target, included, recursive, rfl, noIndexNamed⟩ := noIndex rule declared
  obtain ⟨_, deep, _, isItem⟩ := compile_field_eq_ok compiledRule
  exact ⟨target, included, deep, isItem, noIndexNamed⟩

private theorem project_field_eq_of_alike
    {target : Path} (noIndex : target.NamesNoIndex) (included recursive : Bool)
    {left right : Path} (alike : left.AlikeUpToIndexes right) :
    project (.field target included recursive) left =
      project (.field target included recursive) right := by
  obtain ⟨sameFit, sameLead, sameBeneath⟩ := Path.fits_eq_of_alike alike noIndex
  rw [project, project, projectField, projectField, Path.leadsTo, Path.leadsTo, Path.fits,
    Path.fits, Path.liesBeneath, Path.liesBeneath, sameFit, sameLead, sameBeneath]

private theorem lastAnswer_congr
    {rules : List Projector} {left right : Path}
    (same : ∀ rule ∈ rules, project rule left = project rule right) :
    lastAnswer rules left = lastAnswer rules right := by
  induction rules using List.reverseRecOn with
  | nil => rfl
  | append_singleton front rule hypothesis =>
      have above := hypothesis fun other listed => same other (List.mem_append_left _ listed)
      have here := same rule (by simp)
      simp only [lastAnswer, List.reverse_append, List.reverse_singleton, List.singleton_append,
        List.find?_cons, here] at above ⊢
      cases (project rule right).isDecided with
      | true => simp [here]
      | false => exact above

/-- Without indexes in the rules, the indexes in a path do not matter for the answer about it. -/
theorem NamesNoIndex.project_eq
    (noIndex : projector.NamesNoIndex) {left right : Path}
    (alike : left.AlikeUpToIndexes right) :
    project projector left = project projector right := by
  rw [project_eq_lastAnswer, project_eq_lastAnswer]
  apply lastAnswer_congr
  intro rule listed
  obtain ⟨target, included, recursive, rfl, noIndexNamed⟩ := noIndex rule listed
  exact project_field_eq_of_alike noIndexNamed included recursive alike

theorem NamesNoIndex.nested_eq_none
    (noIndex : projector.NamesNoIndex) (path : Path) :
    (project projector path).nested = none := by
  have fields : projector.HasOnlyFields := by
    intro rule listed
    obtain ⟨target, included, recursive, isField, _⟩ := noIndex rule listed
    exact ⟨target, included, recursive, isField⟩
  exact fields.nested_eq_none path

end Projector

namespace Json

mutual

/-- Every array in the value is short enough for each of its items to have an index. -/
def hasIndexes : Json → Bool
  | object members => membersHaveIndexes members
  | array items => items.length ≤ UInt64.size && itemsHaveIndexes items
  | _ => true

def membersHaveIndexes : List (String × Json) → Bool
  | [] => true
  | (_, value) :: rest => hasIndexes value && membersHaveIndexes rest

def itemsHaveIndexes : List Json → Bool
  | [] => true
  | item :: rest => hasIndexes item && itemsHaveIndexes rest

end

end Json

namespace Projector

variable {projector : Projector} {tree : FieldTree} {path other : Path}

/-- What is shown of a composite, once its parts are shown: all of it where it is included, and
where nothing is decided if any part is shown, or if there is no part and nothing is included. -/
def showComposite {α : Type} (decision : Decision) (inclusion : Bool) (whole shown : List α)
    (composite : List α → Json) : Option Json :=
  match decision with
  | .excluded => none
  | .included => some (composite shown)
  | .undecided =>
      if !shown.isEmpty || (whole.isEmpty && !inclusion) then some (composite shown) else none

private theorem showValue_object_of_no_nested
    (nothingHanded : (project projector path).nested = none) (members : Members) :
    showValue tree (.object members) projector path =
      showComposite (project projector path).decision projector.hasInclusion members
        (showMembers tree members projector path) .object := by
  rw [showValue]
  simp only [nothingHanded, Option.getD_none]
  rfl

private theorem showValue_array_of_no_nested
    (nothingHanded : (project projector path).nested = none) (items : List Json) :
    showValue tree (.array items) projector path =
      showComposite (project projector path).decision projector.hasInclusion items
        (showItems tree items 0 projector path) .array := by
  rw [showValue]
  simp only [nothingHanded, Option.getD_none]
  rfl

/-- What is shown of a composite is the composite of its shown parts, and would be shown again. -/
theorem showComposite_showComposite
    {α : Type} {decision : Decision} {inclusion : Bool} {whole shown : List α}
    {composite : List α → Json} {part : Json}
    (shows : showComposite decision inclusion whole shown composite = some part) :
    part = composite shown ∧
      showComposite decision inclusion shown shown composite = some part := by
  unfold showComposite at shows ⊢
  cases decision with
  | excluded => cases shows
  | included => exact ⟨(Option.some.inj shows).symm, shows⟩
  | undecided =>
      simp only at shows ⊢
      split at shows
      · next stays =>
          refine ⟨(Option.some.inj shows).symm, ?_⟩
          rw [if_pos, shows]
          cases shown with
          | nil => simpa using And.right (by simpa using stays)
          | cons first rest => rfl
      · cases shows

/-- What is shown of a scalar is the scalar, and would be shown again. -/
theorem showValue_of_showValue_scalar
    {value part : Json} (scalar : value.isScalar = true)
    (same : project projector path = project projector other)
    (shows : showValue tree value projector path = some part) :
    showValue tree part projector other = some part := by
  have isValue : part = value := by
    rw [showValue_scalar scalar] at shows
    split at shows
    · cases shows
    · exact (Option.some.inj shows).symm
    · split at shows
      · cases shows
      · exact (Option.some.inj shows).symm
  subst isValue
  rw [showValue_scalar scalar] at shows ⊢
  rw [← same, shows]

/-- Neither the rules of a projector nor the fields of a tree name an index. -/
structure IgnoresIndexes (projector : Projector) (tree : FieldTree) : Prop where
  rules : projector.NamesNoIndex
  fields : tree.NamesNoIndex

namespace IgnoresIndexes

mutual

/-- What is shown of a value is shown as it is at every place that differs in indexes only. -/
theorem showValue_of_showValue (ignores : IgnoresIndexes projector tree) :
    ∀ {value part : Json} {path other : Path},
      value.hasIndexes = true → path.AlikeUpToIndexes other →
      showValue tree value projector path = some part →
        showValue tree part projector other = some part
  | .object members, part, path, other, indexes, alike, shows => by
      have sameAnswer := ignores.rules.project_eq alike
      rw [showValue_object_of_no_nested (ignores.rules.nested_eq_none path)] at shows
      obtain ⟨rfl, again⟩ := showComposite_showComposite shows
      rw [showValue_object_of_no_nested (ignores.rules.nested_eq_none other), ← sameAnswer,
        ignores.showMembers_showMembers indexes alike, again]
  | .array items, part, path, other, indexes, alike, shows => by
      have sameAnswer := ignores.rules.project_eq alike
      rw [Json.hasIndexes, Bool.and_eq_true, decide_eq_true_eq] at indexes
      rw [showValue_array_of_no_nested (ignores.rules.nested_eq_none path)] at shows
      obtain ⟨rfl, again⟩ := showComposite_showComposite shows
      rw [showValue_array_of_no_nested (ignores.rules.nested_eq_none other), ← sameAnswer,
        ignores.showItems_showItems indexes.2 alike (Nat.le_refl 0) (by omega), again]
  | .null, _, _, _, _, alike, shows =>
      showValue_of_showValue_scalar rfl (ignores.rules.project_eq alike) shows
  | .bool _, _, _, _, _, alike, shows =>
      showValue_of_showValue_scalar rfl (ignores.rules.project_eq alike) shows
  | .number _, _, _, _, _, alike, shows =>
      showValue_of_showValue_scalar rfl (ignores.rules.project_eq alike) shows
  | .string _, _, _, _, _, alike, shows =>
      showValue_of_showValue_scalar rfl (ignores.rules.project_eq alike) shows

private theorem showMembers_showMembers (ignores : IgnoresIndexes projector tree) :
    ∀ {members : List (String × Json)} {path other : Path},
      Json.membersHaveIndexes members = true → path.AlikeUpToIndexes other →
        showMembers tree (showMembers tree members projector path) projector other =
          showMembers tree members projector path
  | [], _, _, _, _ => rfl
  | (name, value) :: rest, path, other, indexes, alike => by
      rw [Json.membersHaveIndexes, Bool.and_eq_true] at indexes
      have others := ignores.showMembers_showMembers indexes.2 alike
      have alikeHere := alike.child (Or.inl (Eq.refl name))
      have sameNode := FieldTree.resolve?_eq_of_alike ignores.fields alikeHere
      rw [showMembers]
      split
      · exact others
      · next known =>
          cases shows : showValue tree value projector (path.child name) with
          | none => exact others
          | some part =>
              have again := ignores.showValue_of_showValue indexes.1 alikeHere shows
              rw [sameNode] at known
              simp only [showMembers, if_neg known, again, others]

/-- Items only move to the front, so that each still has an index where it stands then. -/
theorem showItems_showItems (ignores : IgnoresIndexes projector tree) :
    ∀ {items : List Json} {index earlier : Nat} {path other : Path},
      Json.itemsHaveIndexes items = true → path.AlikeUpToIndexes other →
      earlier ≤ index → index + items.length ≤ UInt64.size →
        showItems tree (showItems tree items index projector path) earlier projector other =
          showItems tree items index projector path
  | [], _, _, _, _, _, _, _, _ => rfl
  | item :: rest, index, earlier, path, other, indexes, alike, before, small => by
      rw [Json.itemsHaveIndexes, Bool.and_eq_true] at indexes
      rw [List.length_cons] at small
      rw [showItems]
      cases shows : showValue tree item projector (path.child index.repr) with
      | none => exact ignores.showItems_showItems indexes.2 alike (by omega) (by omega)
      | some part =>
          have bothIndexes : Path.SegmentsAlike index.repr earlier.repr :=
            Path.segmentsAlike_repr (by omega) (by omega)
          have again :=
            ignores.showValue_of_showValue indexes.1 (alike.child bothIndexes) shows
          have others :=
            ignores.showItems_showItems indexes.2 alike (Nat.succ_le_succ before) (by omega)
          simp only [showItems, again, others]

end

end IgnoresIndexes

/-- Where every rule is a field rule and neither a rule nor a field names an index, what is shown of a
document is shown again as it is. An index is a number below `2 ^ 64`, and documents have one for
each item of an array. -/
theorem projectDocument_projectDocument
    {projection : Projection} (noIndex : projection.NamesNoIndex)
    (noIndexNamed : tree.NamesNoIndex)
    (compiled : compile tree projection .root FieldTree.root = .ok projector)
    {members : Members} (indexes : (Json.object members).hasIndexes = true) :
    ∃ shown,
      projectDocument projector tree (.object members) = .ok shown ∧
        projectDocument projector tree shown = .ok shown := by
  have ignores : IgnoresIndexes projector tree :=
    ⟨namesNoIndex_of_compile noIndex compiled, noIndexNamed⟩
  have atRoot : Path.root.AlikeUpToIndexes .root := List.Forall₂.nil
  have again := ignores.showMembers_showMembers indexes atRoot
  refine ⟨.object (showMembers tree members projector .root), rfl, ?_⟩
  rw [projectDocument, again]

def noNumbers : Projection :=
  .list [.list [.field skuOfEveryLine false false], .list []]

/-- Two lines are emptied and dropped, so that the lines between and behind them move up. What is left
is shown again as it is. -/
theorem lines_move_up_once :
    let numbers : Projector := .list [.list [.field skuOfEveryLine false false], .list []]
    let members : Members :=
      [("lines", .array [.object [("sku", .string "A")], .object [],
        .object [("sku", .string "B"), ("note", .null)], .null])]
    let shown : Json := .object [("lines", .array [.object [], .null])]
    noNumbers.NamesNoIndex ∧ linesTree.NamesNoIndex ∧
      compile linesTree noNumbers .root FieldTree.root = .ok numbers ∧
      (Json.object members).hasIndexes = true ∧
      projectDocument numbers linesTree (.object members) = .ok shown ∧
      projectDocument numbers linesTree shown = .ok shown := by
  intro numbers members shown
  have noIndex : noNumbers.NamesNoIndex := by
    intro rule listed
    have named : ∀ segment ∈ skuOfEveryLine.segments, Path.indexOf? segment = none := by
      decide
    rw [List.mem_singleton.1 listed]
    exact ⟨skuOfEveryLine, false, false, rfl, named⟩
  have noIndexNamed : linesTree.NamesNoIndex := by
    intro id name named
    obtain ⟨node, found, _⟩ := Option.map_eq_some_iff.1 named
    have inside := FieldTree.lt_size_of_node? found
    have each : ∀ id < linesTree.size, Path.indexOf? (linesTree.nameAt id) = none := by
      decide
    rw [FieldTree.name?_eq_some_nameAt inside] at named
    rw [← Option.some.inj named]
    exact each id inside
  have compiled : compile linesTree noNumbers .root FieldTree.root = .ok numbers := by
    rfl
  have indexes : (Json.object members).hasIndexes = true := by
    rfl
  have shows : projectDocument numbers linesTree (.object members) = .ok shown := by
    rfl
  obtain ⟨found, first, again⟩ :=
    projectDocument_projectDocument noIndex noIndexNamed compiled indexes
  rw [shows] at first
  cases first
  exact ⟨noIndex, noIndexNamed, compiled, indexes, shows, again⟩

end Projector
end Schemata

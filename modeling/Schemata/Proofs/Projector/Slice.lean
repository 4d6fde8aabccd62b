import Schemata.Proofs.FieldTree.Patterns
import Schemata.Proofs.Projector.Relocation
import Schemata.Proofs.Projector.Walk

/-!
# Slices of arrays

A single rule that includes a range of an array shows of a document the slice of the array that the
range names and what stands around the array, and nothing else. The bounds are indexes of items of the
document. They may lie beyond the array, up to the largest index that there is.
-/
namespace Schemata

namespace Json

def nest (value : Json) : List String → Json
  | [] => value
  | name :: rest => .object [(name, nest value rest)]

end Json

namespace FieldTree

variable {tree : FieldTree} {path above : Path} {name : String} {id : NodeId}

/-- Every segment of a path follows on an object, so that it is the name of a member. -/
def NamesMembers (tree : FieldTree) (path : Path) : Prop :=
  ∀ above : Path, above.segments <+: path.segments → above ≠ path →
    ∃ object, tree.resolve? above = some object ∧ tree.hasObject object = true

/-- The way to a node leads through objects, and on from each of them. -/
theorem NamesMembers.step
    (named : tree.NamesMembers path) (resolved : tree.resolve? path = some id)
    {front back : List String} (whole : path.segments = front ++ name :: back) :
    ∃ object,
      tree.resolve? ⟨front⟩ = some object ∧ tree.hasObject object = true ∧
        (tree.resolve? ⟨front ++ [name]⟩).isSome = true := by
  have notWhole : (⟨front⟩ : Path) ≠ path := by
    rintro rfl
    exact absurd whole (by simp)
  obtain ⟨object, found, isObject⟩ :=
    named ⟨front⟩ (by rw [whole]; exact List.prefix_append _ _) notWhole
  refine ⟨object, found, isObject, ?_⟩
  by_cases last : (⟨front ++ [name]⟩ : Path) = path
  · rw [last, resolved]
    rfl
  · obtain ⟨next, nextFound, _⟩ := named ⟨front ++ [name]⟩ (by simp [whole]) last
    rw [nextFound]
    rfl

/-- What leads on from an object is not the wildcard. -/
theorem ne_wildcard_of_object
    (found : tree.resolve? above = some id) (object : tree.hasObject id = true)
    (resolves : (tree.resolve? (above.child name)).isSome = true) :
    name ≠ Path.wildcard := by
  rw [resolve?_child, found, Option.bind_some] at resolves
  obtain ⟨next, led⟩ := Option.isSome_iff_exists.1 resolves
  rcases step?_eq_some_iff.1 led with ⟨_, plain, _⟩ | ⟨element, _⟩
  · exact plain
  · rw [not_element?_of_hasObject object] at element
    cases element

end FieldTree

namespace Projector

open FieldTree
open Json (Step Place)

variable {tree : FieldTree} {target : Path} {first last : UInt64} {nested : Option Projector}

private theorem project_range_above
    {above : Path} (reached : above.segments <+: target.segments) :
    project (.range target true first last nested) above =
      .decided .included (.range target true first last nested) := by
  have leads : above.leadsTo target = true :=
    Path.leadsTo_of_prefix reached (Path.leadsTo_of_fits (Path.segmentsFit_self _))
  rw [project, projectRange, if_pos leads]
  rfl

/-- Where a segment does not fit, the array is neither here nor above. -/
theorem project_range_beside
    {front back more : List String} {name other : String}
    (whole : target.segments = front ++ name :: back)
    (differs : Path.segmentFits other name = false) :
    project (.range target true first last nested) ⟨front ++ other :: more⟩ = .undecided := by
  obtain ⟨_, leads, beneath⟩ := Path.segments_append (rfl : front.length = front.length)
    (other :: more) (name :: back)
  rw [Path.segmentsLeadTo, differs, Bool.false_and, Bool.and_false, ← whole] at leads
  rw [Path.segmentsLieBeneath, differs, Bool.false_and, Bool.and_false, ← whole] at beneath
  simp [project, projectRange, selects, Path.leadsTo, Path.liesBeneath, leads, beneath]

/-- An item within the bounds is included and hands on. What lies beneath it is included as well, but
only if nothing is nested. -/
theorem project_range_item (index : Nat) (more : List String) :
    project (.range target true first last nested) ⟨target.segments ++ index.repr :: more⟩ =
      if first.toNat ≤ index ∧ index ≤ last.toNat then
        if more = [] then
          ⟨.included, nested, some (.range target true first last nested)⟩
        else if nested.isNone then .decided .included (.range target true first last nested)
        else .undecided
      else .undecided := by
  obtain ⟨_, leads, beneath⟩ := Path.segments_append
    (rfl : target.segments.length = target.segments.length) (index.repr :: more) []
  rw [List.append_nil, Path.segmentsFit_self, Bool.true_and] at leads beneath
  have read :
      (Path.mk (target.segments ++ index.repr :: more)).index? target.length =
        (some index).filter (· < UInt64.size) := by
    simp [Path.index?, Path.segment?, Path.length, Path.indexOf?_repr_eq]
  have selected :
      selects target first last ⟨target.segments ++ index.repr :: more⟩ = true ↔
        first.toNat ≤ index ∧ index ≤ last.toNat := by
    have small := last.toNat_lt
    rw [selects, read, Path.liesBeneath, beneath]
    simp only [Path.segmentsLieBeneath, Bool.true_and, Option.any_filter, Option.any_some,
      Bool.and_eq_true, decide_eq_true_eq]
    constructor
    · exact And.right
    · intro within
      exact ⟨Nat.lt_of_le_of_lt within.2 small, within⟩
  have notAbove :
      (Path.mk (target.segments ++ index.repr :: more)).leadsTo target = false := by
    rw [Path.leadsTo, leads]
    rfl
  have atItem :
      (Path.mk (target.segments ++ index.repr :: more)).length = target.length + 1 ↔
        more = [] := by
    simp [Path.length]
  rw [project, projectRange, notAbove]
  simp only [selected, atItem, Bool.false_eq_true, if_false, if_true, Decision.ofFlag]

/-- The items from one index up to another one, as many of them as there are. -/
def slice (first last : UInt64) (items : List Json) : List Json :=
  (items.drop first.toNat).take (last.toNat + 1 - first.toNat)

private theorem length_slice (first last : UInt64) (items : List Json) :
    (slice first last items).length = min (last.toNat + 1) items.length - first.toNat := by
  rw [slice, List.length_take, List.length_drop]
  omega

private theorem getElem?_slice
    {items : List Json} {offset : Nat} {item : Json}
    (listed : (slice first last items)[offset]? = some item) :
    items[first.toNat + offset]? = some item ∧ first.toNat + offset ≤ last.toNat := by
  rw [slice, List.getElem?_take] at listed
  split at listed
  · next within =>
      rw [List.getElem?_drop] at listed
      exact ⟨listed, by omega⟩
  · cases listed

private theorem showValue_outside
    {index : Nat} (outside : index < first.toNat ∨ last.toNat < index) (item : Json) :
    showValue tree item (.range target true first last nested) (target.child index.repr) =
      none := by
  refine showValue_eq_none_of_decidesAll rfl item (decidesAll_child fun more => ?_)
  have notWithin : ¬ (first.toNat ≤ index ∧ index ≤ last.toNat) := by
    omega
  rw [project_range_item, if_neg notWithin]
  exact ⟨rfl, rfl⟩

/-- What a range shows of an item at a place: what the tree knows of it, or what a nested projector
shows of it. -/
noncomputable def itemShown (tree : FieldTree) (nested : Option Projector) (place : Place)
    (item : Json) : Json :=
  match nested with
  | none => item.keep (Known tree) place
  | some scope => showIncluded tree scope (Place.path place) item

private theorem showValue_within
    {array : Place} {index : Nat} (within : first.toNat ≤ index ∧ index ≤ last.toNat)
    (item : Json) :
    showValue tree item (.range (Place.path array) true first last nested)
        ((Place.path array).child index.repr) =
      some (itemShown tree nested (array ++ [.item index]) item) := by
  have here : (Place.path array).child index.repr = Place.path (array ++ [.item index]) :=
    (Place.path_concat array (.item index)).symm
  cases nested with
  | none =>
      have all :
          (Projector.range (Place.path array) true first last none).DecidesAll
            ((Place.path array).child index.repr) .included := by
        refine decidesAll_child fun more => ?_
        rw [project_range_item, if_pos within]
        split <;> exact ⟨rfl, rfl⟩
      rw [here] at all ⊢
      exact showValue_eq_keep_known item all
  | some scope =>
      have answer :
          (Projector.range (Place.path array) true first last (some scope)).project
              ((Place.path array).child index.repr) =
            ⟨.included, some scope,
              some (.range (Place.path array) true first last (some scope))⟩ := by
        rw [Path.child, project_range_item, if_pos within, if_pos rfl]
      rw [showValue_of_decision_included (congrArg Projected.decision answer), handOn, answer,
        itemShown, ← here]
      rfl

private theorem itemShown_scalar
    {item : Json} (scalar : item.isScalar = true) (nested : Option Projector) (place : Place) :
    itemShown tree nested place item = item := by
  cases nested with
  | none => exact Json.keep_scalar _ scalar place
  | some scope =>
      cases item with
      | object members => cases scalar
      | array items => cases scalar
      | _ => rfl

/-- Of the items of an array those within the bounds are shown. -/
theorem showItems_range (array : Place) (items : List Json) :
    showItems tree items 0 (.range (Place.path array) true first last nested) (Place.path array) =
      (slice first last items).mapIdx fun offset item =>
        itemShown tree nested (array ++ [.item (first.toNat + offset)]) item := by
  rw [showItems_drop (Nat.zero_le first.toNat) fun index item before =>
      showValue_outside (Or.inl before) item,
    showItems_take (last.toNat + 1) fun index item beyond =>
      showValue_outside (Or.inr beyond) item, Nat.sub_zero]
  refine showItems_eq_mapIdx fun offset item listed => showValue_within ?_ item
  exact ⟨Nat.le_add_right _ _, (getElem?_slice listed).2⟩

/-- Of an object on the way to the array the one member is shown that leads there. -/
theorem showMembers_on_way
    (named : tree.NamesMembers target) {array : NodeId}
    (resolved : tree.resolve? target = some array) {front back : List String} {name : String}
    (whole : target.segments = front ++ name :: back) {members : Members}
    (apart : (members.map Prod.fst).Nodup) {part : Json} (found : (name, part) ∈ members) :
    showMembers tree members (.range target true first last nested) ⟨front⟩ =
      [(name,
        showIncluded tree (.range target true first last nested) ⟨front ++ [name]⟩ part)] := by
  obtain ⟨object, objectFound, isObject, resolves⟩ := named.step resolved whole
  have plain := ne_wildcard_of_object objectFound isObject resolves
  have above : front ++ [name] <+: target.segments := by
    simp [whole]
  refine showMembers_eq_singleton apart found resolves
    (showValue_of_included (project_range_above above) part) ?_
  intro other value differs otherResolves
  have otherPlain := ne_wildcard_of_object objectFound isObject otherResolves
  have notFit : Path.segmentFits other name = false := by
    rw [← Bool.not_eq_true, Path.segmentFits_iff_eq otherPlain plain]
    exact differs
  refine showValue_eq_none_of_decidesAll rfl value (decidesAll_child fun more => ?_)
  rw [project_range_beside whole notFit]
  exact ⟨rfl, rfl⟩

/-- Of a value on the way to the array nothing is shown but the array and what is around it. -/
theorem showIncluded_on_way
    (named : tree.NamesMembers target) {array : NodeId}
    (resolved : tree.resolve? target = some array) {items : List Json} {front back : List String}
    (whole : target.segments = front ++ back) {value : Json} (apart : value.NamesApart)
    (found : value.Holds (back.map Step.member) (.array items)) :
    showIncluded tree (.range target true first last nested) ⟨front⟩ value =
      Json.nest
        (.array (showItems tree items 0 (.range target true first last nested) target)) back := by
  induction back generalizing front value with
  | nil =>
      have here : target = ⟨front⟩ := by
        rw [← List.append_nil front, ← whole]
      cases found
      rw [showIncluded, ← here, Json.nest]
  | cons name rest hypothesis =>
      obtain ⟨part, here, foundRest⟩ := found
      cases value with
      | object members =>
          have wholeNext : target.segments = (front ++ [name]) ++ rest := by
            rw [whole, List.append_cons]
          rw [showIncluded, showMembers_on_way named resolved whole (apart [] members rfl) here,
            hypothesis wholeNext (apart.part here) foundRest, Json.nest]
      | _ => cases here

private theorem compile_range_of_resolve?
    (wellFormed : tree.WellFormed) {project : Option Projection} {array element : NodeId}
    (resolved : tree.resolve? target = some array) (isElement : tree.element? array = some element)
    (ordered : first ≤ last)
    (compiled :
      project.mapM (fun rule => compile tree rule (target.child Path.wildcard) element) =
        .ok nested) :
    compile tree (.range target true first last project) .root root =
      .ok (.range target true first last nested) := by
  have notRoot : target.isRoot = false := by
    obtain ⟨segments⟩ := target
    cases segments with
    | nil =>
        cases resolved
        rw [not_element?_of_hasObject wellFormed.rootObject] at isElement
        cases isElement
    | cons name rest => rfl
  have listed : tree.nodesMatching root .root target = .ok [array] := by
    rw [wellFormed.nodesMatching_root, stepsAll_of_follow? resolved]
  have named : targets tree target .root root = .ok [array] :=
    targets_eq_ok_iff.2 ⟨notRoot, listed, rfl⟩
  have elementFound : rangeElement tree target .root root = .ok element := by
    rw [rangeElement, named]
    exact congrArg (Option.elim · _ _) isElement
  have bounds : checkBounds target first last = .ok () := if_neg (UInt64.not_lt.2 ordered)
  exact compile_range_eq_ok_iff.2 ⟨element, nested, elementFound, bounds, compiled, rfl⟩

private theorem path_members (path : Path) : Place.path (path.segments.map Step.member) = path := by
  simp [Place.path, Function.comp_def, Step.segment]

private theorem projectDocument_range
    (named : tree.NamesMembers target) {array : NodeId}
    (resolved : tree.resolve? target = some array) {members : Members}
    (apart : (Json.object members).NamesApart) {items : List Json}
    (found : (Json.object members).Holds (target.segments.map Step.member) (.array items)) :
    projectDocument (.range target true first last nested) tree (.object members) =
      .ok (Json.nest
        (.array ((slice first last items).mapIdx fun offset item =>
          itemShown tree nested
            (target.segments.map Step.member ++ [.item (first.toNat + offset)]) item))
        target.segments) := by
  have shown :
      showIncluded tree (.range target true first last nested) .root (.object members) =
        Json.nest
          (.array (showItems tree items 0 (.range target true first last nested) target))
          target.segments :=
    showIncluded_on_way named resolved (List.nil_append _).symm apart found
  rw [← showItems_range, path_members]
  exact congrArg Except.ok shown

/-- In every tree that operations make, a single rule that includes a range of an array compiles, and
shows of a document with an array there just that array and the objects around it. The array keeps the
items from the first bound up to the last one or to the end, whichever comes first; the bounds may be as
large as indexes can be. In the place of an item stands a scalar as it is; of an object or an array
what the tree knows of it if nothing is nested in the rule; and otherwise what the walk shows of it with
the nested projector in force, by the rules of that one alone. -/
theorem range_shows_slice
    {growths : List Growth} (grown : FieldTree.empty.growAll growths = tree)
    (named : tree.NamesMembers target) {array element : NodeId}
    (resolved : tree.resolve? target = some array) (isElement : tree.element? array = some element)
    (ordered : first ≤ last) {project : Option Projection}
    (compiled :
      project.mapM (fun rule => compile tree rule (target.child Path.wildcard) element) =
        .ok nested)
    {members : Members} (apart : (Json.object members).NamesApart) {items : List Json}
    (found : (Json.object members).Holds (target.segments.map Step.member) (.array items)) :
    compile tree (.range target true first last project) .root root =
        .ok (.range target true first last nested) ∧
      ∃ entries,
        projectDocument (.range target true first last nested) tree (.object members) =
            .ok (Json.nest (.array entries) target.segments) ∧
          entries.length = min (last.toNat + 1) items.length - first.toNat ∧
          ∀ offset, offset < entries.length →
            ∃ item entry,
              items[first.toNat + offset]? = some item ∧ entries[offset]? = some entry ∧
                (item.isScalar = true → entry = item) ∧
                (project = none →
                  entry =
                    item.keep (Known tree)
                      (target.segments.map Step.member ++ [.item (first.toNat + offset)])) ∧
                ∀ scope, nested = some scope →
                  entry =
                    showIncluded tree scope
                      (target.child (Nat.repr (first.toNat + offset))) item := by
  have wellFormed : tree.WellFormed := grown ▸ wellFormed_empty.growAll growths
  refine ⟨compile_range_of_resolve? wellFormed resolved isElement ordered compiled, _,
    projectDocument_range named resolved apart found, ?_, ?_⟩
  · rw [List.length_mapIdx, length_slice]
  · intro offset within
    rw [List.length_mapIdx] at within
    have listed := List.getElem?_eq_getElem within
    refine ⟨_, _, (getElem?_slice listed).1, by rw [List.getElem?_mapIdx, listed]; rfl, ?_, ?_, ?_⟩
    · intro scalar
      exact itemShown_scalar scalar nested _
    · rintro rfl
      cases compiled
      rfl
    · rintro scope rfl
      have itemPath := Place.path_concat (target.segments.map Step.member)
        (.item (first.toNat + offset))
      rw [path_members] at itemPath
      exact congrArg (showIncluded tree scope · _) itemPath

def linesGrowths : List Growth :=
  [.objectArray root "lines", .leaf 2 "sku" ⟨0, 0, .scalar .string⟩]

private theorem growAll_linesGrowths : FieldTree.empty.growAll linesGrowths = linesTree := by
  have lines : FieldTree.empty.Addable root "lines" :=
    ⟨⟨by decide, by decide, by decide⟩, rfl, rfl⟩
  have number : (FieldTree.empty.attachArray root "lines" (.object [])).Addable 2 "sku" :=
    ⟨⟨by decide, by decide, by decide⟩, rfl, rfl⟩
  simp only [linesGrowths, growAll, List.foldl_cons, List.foldl_nil,
    grow_objectArray_of_addable lines, grow_leaf_of_addable number, linesTree]

private theorem linesTree_namesMembers : linesTree.NamesMembers ⟨["lines"]⟩ := by
  rintro ⟨above⟩ reached different
  cases above with
  | nil => exact ⟨root, rfl, by rfl⟩
  | cons name rest =>
      obtain ⟨rfl, atEnd⟩ := List.cons_prefix_cons.1 reached
      cases List.prefix_nil.1 atEnd
      exact (different rfl).elim

def laterLines : Projector :=
  .range ⟨["lines"]⟩ true 1 18446744073709551615
    (some (.field ⟨["lines", "*", "sku"]⟩ false false))

private theorem namesApart_orderWith
    {note number loose : Json} (noteApart : note.NamesApart) (numberApart : number.NamesApart)
    (looseApart : loose.NamesApart) :
    (Json.object (orderWith note number loose)).NamesApart := by
  have text (value : String) : (Json.string value).NamesApart := Json.namesApart_scalar rfl
  refine Json.namesApart_object (List.nodup_singleton _) (List.forall_mem_singleton.2 ?_)
  refine Json.namesApart_array ?_
  rw [List.forall_mem_cons, List.forall_mem_cons, List.forall_mem_singleton]
  refine ⟨Json.namesApart_object ?_ ?_, Json.namesApart_object (List.nodup_singleton _) ?_,
    looseApart⟩
  · show ["sku", "note"].Nodup
    decide
  · rw [List.forall_mem_cons, List.forall_mem_singleton]
    exact ⟨text "A", noteApart⟩
  · rw [List.forall_mem_singleton]
    exact numberApart

/-- The second line loses its number, by the exclusion that is nested, and what is no line stays. The
upper bound is the largest index, long after the last line. -/
theorem laterLines_shows :
    (Json.object (orderWith (.string "urgent") (.string "B") .null)).Holds [.member "lines"]
        (.array [
          .object [("sku", .string "A"), ("note", .string "urgent")],
          .object [("sku", .string "B")],
          .null]) ∧
      compile linesTree
          (.range ⟨["lines"]⟩ true 1 18446744073709551615 (some (.excluding ⟨["sku"]⟩)))
          .root root =
        .ok laterLines ∧
      (∃ entries,
        projectDocument laterLines linesTree
            (.object (orderWith (.string "urgent") (.string "B") .null)) =
          .ok (Json.nest (.array entries) ["lines"]) ∧
        entries.length = 2 ∧ entries[1]? = some .null) ∧
      projectDocument laterLines linesTree
          (.object (orderWith (.string "urgent") (.string "B") .null)) =
        .ok (Json.nest (.array [.object [], .null]) ["lines"]) := by
  have nestedCompiled :
      (some (Projection.excluding ⟨["sku"]⟩)).mapM (fun rule =>
          compile linesTree rule (Path.child ⟨["lines"]⟩ Path.wildcard) 2) =
        .ok (some (.field ⟨["lines", "*", "sku"]⟩ false false)) := by
    rfl
  have apart : (Json.object (orderWith (.string "urgent") (.string "B") .null)).NamesApart :=
    namesApart_orderWith (Json.namesApart_scalar rfl) (Json.namesApart_scalar rfl)
      (Json.namesApart_scalar rfl)
  have found :
      (Json.object (orderWith (.string "urgent") (.string "B") .null)).Holds [.member "lines"]
        (.array [
          .object [("sku", .string "A"), ("note", .string "urgent")],
          .object [("sku", .string "B")],
          .null]) :=
    ⟨_, List.mem_singleton_self _, rfl⟩
  have ordered : (1 : UInt64) ≤ 18446744073709551615 := by
    decide
  obtain ⟨compiled, entries, projected, length, each⟩ :=
    range_shows_slice growAll_linesGrowths linesTree_namesMembers (by rfl) (by rfl) ordered
      nestedCompiled apart found
  have two : entries.length = 2 := length
  obtain ⟨item, entry, listed, shown, scalar, _⟩ := each 1 (by omega)
  cases listed
  rw [scalar rfl] at shown
  exact ⟨found, compiled, ⟨entries, projected, two, shown⟩, by rfl⟩

end Projector
end Schemata

import Schemata.Proofs.Projector.Inclusion

/-!
# Arrays of scalars

A field rule that includes an array of scalars shows it whole if it is recursive, and it is made so
if what it names are arrays of leaves. But all that it names has to be: where a pattern also names
anything else, the arrays of scalars among it are shown without their items.
-/
namespace Schemata.Projector

open Json (Step Place)

variable {projector : Projector} {tree : FieldTree}

private theorem project_inclusion_child
    {target path : Path} (fit : path.fits target = true) (recursive : Bool) (segment : String) :
    project (.field target true recursive) (path.child segment) =
      if recursive then .decided .included (.field target true recursive) else .undecided := by
  obtain ⟨past, beneath⟩ := Path.child_of_fits fit segment
  cases recursive <;> simp [project, projectField, past, beneath, Decision.ofFlag]

private theorem showItems_of_scalars
    {target path : Path} (fit : path.fits target = true) (recursive : Bool)
    {items : List Json} (scalars : ∀ item ∈ items, item.isScalar = true) (start : Nat) :
    showItems tree items start (.field target true recursive) path =
      if recursive then items else [] := by
  induction items generalizing start with
  | nil => cases recursive <;> rfl
  | cons item rest hypothesis =>
      have restShown := hypothesis (fun other later => scalars other (List.mem_cons_of_mem _ later))
      rw [showItems, restShown, showValue_scalar (scalars item List.mem_cons_self),
        project_inclusion_child fit]
      cases recursive <;> rfl

/-- Under a single inclusion an array of scalars that it fits stays in the projected document. It
keeps all of its items if the rule is recursive or every node that its pattern names is an array of
leaves, and otherwise loses all of them. -/
theorem scalarArray_whole_or_emptied
    {target : Path} {recursive : Bool}
    (compiled :
      compile tree (.field target true recursive) .root FieldTree.root = .ok projector)
    {members : Members} {place : Place} {items : List Json}
    (found : (Json.object members).Holds place (.array items))
    (scalars : ∀ item ∈ items, item.isScalar = true)
    (fit : (Place.path place).fits target = true) (known : KnownTo tree place) :
    ∃ ids shown there,
      tree.nodesMatching FieldTree.root .root target = .ok ids ∧
        projectDocument projector tree (.object members) = .ok shown ∧
        Json.Retains (projector.Shown tree) [] (.object members) place (.array items) there ∧
        ((recursive = true ∨ ∀ id ∈ ids, tree.isScalarArray id = true) →
          shown.Holds there (.array items)) ∧
        ((recursive = false ∧ ∃ id ∈ ids, tree.isScalarArray id = false) →
          shown.Holds there (.array [])) := by
  obtain ⟨ids, named, rfl⟩ := exists_targets_of_compile_field compiled
  obtain ⟨notRoot, listed⟩ := named_of_targets named
  have includes :
      (Projector.field target true (recursive || ids.all tree.isScalarArray)).Includes place :=
    includes_of_fits (fun path leads => ⟨_, project_inclusion _ leads⟩) fit
  obtain ⟨shown, there, projected, retained, holds⟩ :=
    includes.survives known (ne_nil_of_fits notRoot fit) found
  rw [showIncluded, showItems_of_scalars fit _ scalars] at holds
  refine ⟨ids, shown, there, listed, projected, retained, ?_, ?_⟩
  · intro whole
    rwa [if_pos (by simpa using whole)] at holds
  · rintro ⟨shallow, id, namedToo, other⟩
    have notAll : ids.all tree.isScalarArray = false :=
      List.all_eq_false.2 ⟨id, namedToo, by simp [other]⟩
    rwa [shallow, notAll] at holds

def tagsTree : FieldTree :=
  FieldTree.empty.attachArray FieldTree.root "tags" (.leaf ⟨0, 0, .scalar .string⟩ [])

def taggedTree : FieldTree :=
  tagsTree.attach FieldTree.root "id" (.leaf ⟨0, 0, .scalar .uid⟩ [])

def everyField : Path :=
  ⟨["*"]⟩

def tags : Json :=
  .array [.string "rush", .string "gift"]

/-- The wildcard names the array of texts only, which keeps its items. -/
theorem tags_alone_stay_whole :
    ∃ projector,
      compile tagsTree (.field everyField true false) .root FieldTree.root = .ok projector ∧
        (Json.object [("tags", tags)]).Holds [.member "tags"] tags ∧
        (Place.path [.member "tags"]).fits everyField = true ∧
        KnownTo tagsTree [.member "tags"] ∧
        ∃ shown there,
          projectDocument projector tagsTree (.object [("tags", tags)]) = .ok shown ∧
            Json.Retains (projector.Shown tagsTree) [] (.object [("tags", tags)])
                [.member "tags"] tags there ∧
            shown.Holds there tags := by
  obtain ⟨projector, compiled⟩ :
      ∃ projector,
        compile tagsTree (.field everyField true false) .root FieldTree.root = .ok projector :=
    ⟨_, rfl⟩
  have found : (Json.object [("tags", tags)]).Holds [.member "tags"] tags :=
    ⟨_, List.mem_singleton_self _, rfl⟩
  have scalars : ∀ item ∈ [Json.string "rush", .string "gift"], item.isScalar = true := by
    decide
  have fit : (Place.path [.member "tags"]).fits everyField = true := by
    decide
  have known : KnownTo tagsTree [.member "tags"] :=
    (knownTo_nil tagsTree).member "tags" rfl
  obtain ⟨ids, shown, there, named, projected, retained, whole, _⟩ :=
    scalarArray_whole_or_emptied compiled found scalars fit known
  have onlyTags : ∀ id ∈ ids, tagsTree.isScalarArray id = true := by
    cases named
    decide
  exact ⟨projector, compiled, found, fit, known, shown, there, projected, retained,
    whole (Or.inr onlyTags)⟩

/-- The wildcard also names the identifier, and the array loses its items. -/
theorem tags_beside_identifier_are_emptied :
    ∃ projector,
      compile taggedTree (.field everyField true false) .root FieldTree.root = .ok projector ∧
        taggedTree.resolve? (Place.path [.member "tags"]) = some 1 ∧
        taggedTree.isScalarArray 1 = true ∧
        (Place.path [.member "tags"]).fits everyField = true ∧
        KnownTo taggedTree [.member "tags"] ∧
        (Json.object [("id", .string "o-1"), ("tags", tags)]).Holds [.member "tags"] tags ∧
        projectDocument projector taggedTree
            (.object [("id", .string "o-1"), ("tags", tags)]) =
          .ok (.object [("id", .string "o-1"), ("tags", .array [])]) := by
  refine ⟨_, rfl, by rfl, by rfl, by decide, ?_, ?_, by rfl⟩
  · exact (knownTo_nil taggedTree).member "tags" rfl
  · exact ⟨_, List.mem_cons_of_mem _ (List.mem_singleton_self _), rfl⟩

end Schemata.Projector

import Schemata.FieldTree.Growth
import Schemata.Proofs.Projector.Pointwise
import Schemata.Proofs.Projector.Rules

/-!
# An exclusion declared last

The last rule of a list wins over the others, but only where the list is what decides. Beneath an
element that a range rule hands on to a projector of its own the list is not asked again, and
there its last rule does not win either.
-/
namespace Schemata.Projector

open Json (Step Place)

variable {projector : Projector} {tree : FieldTree}

/-- The projector in force beneath a place is still the one at the top, unless that one has handed
on to another at an element on the way. -/
theorem scopeBeneath_eq_self_or_handed
    (projector : Projector) (place : Place) :
    projector.scopeBeneath place = projector ∨
      ∃ element nested,
        element ≠ [] ∧ element <+: place ∧ projector.scopeAt element = projector ∧
          (projector.project (Place.path element)).nested = some nested := by
  induction place using List.reverseRecOn with
  | nil => exact Or.inl rfl
  | append_singleton place step hypothesis =>
      rcases hypothesis with same | ⟨element, nested, notTop, reached, scope, handed⟩
      · rw [scopeBeneath_concat, same, handOn]
        cases handed : (projector.project (Place.path (place ++ [step]))).nested with
        | none => exact Or.inl rfl
        | some nested =>
            have scope : projector.scopeAt (place ++ [step]) = projector := by
              rw [scopeAt_concat, same]
            exact Or.inr
              ⟨place ++ [step], nested, by simp, List.prefix_rfl, scope, handed⟩
      · have reachedBeyond := reached.trans (List.prefix_append place [step])
        exact Or.inr ⟨element, nested, notTop, reachedBeyond, scope, handed⟩

private theorem compile_last_exclusion
    {rules : List Projection} {target : Path} {recursive : Bool}
    (compiled :
      compile tree (.list (rules ++ [.field target false recursive])) .root FieldTree.root =
        .ok projector) :
    target.isRoot = false ∧
      ∀ path : Path,
        path.fits target = true → (projector.project path).decision = .excluded := by
  obtain ⟨earlier, last, lastCompiled, rfl⟩ := exists_last_of_compile compiled
  obtain ⟨notRoot, deep, _, rfl⟩ := compile_field_eq_ok lastCompiled
  refine ⟨notRoot, fun path fit => ?_⟩
  have excluded := project_list_concat earlier (project_exclusion deep fit) rfl
  exact congrArg Projected.decision excluded

/-- In a list with an exclusion as its last rule, a value that the exclusion fits is shown only
beneath an element about which the list's last say is a range rule that includes it and hands on.
Such an element lies above the value, and from there on the list is not asked again. -/
theorem shown_of_last_exclusion
    {rules : List Projection} {target : Path} {recursive : Bool}
    (compiled :
      compile tree (.list (rules ++ [.field target false recursive])) .root FieldTree.root =
        .ok projector)
    (members : Members) :
    projectDocument projector tree (.object members) =
        .ok (Json.keep (projector.Shown tree) (.object members) []) ∧
      ∀ place value,
        (Place.path place).fits target = true →
        projector.Shown tree place value →
        ∃ element nested array first last,
          element ≠ [] ∧ element <+: place ∧ element ≠ place ∧
            projector.scopeAt element = projector ∧
            SelectsElement array first last (Place.path element) ∧
            projector.project (Place.path element) =
              ⟨.included, some nested, some (.range array true first last (some nested))⟩ ∧
            projector.scopeBeneath element = nested := by
  refine ⟨projectDocument_eq_keep projector tree members, ?_⟩
  intro place value fit shown
  obtain ⟨notRoot, excludes⟩ := compile_last_exclusion compiled
  rcases place.eq_nil_or_concat' with rfl | ⟨above, step, rfl⟩
  · rw [Place.path_nil, Path.root_fits_iff, notRoot] at fit
    cases fit
  · have notExcluded := (shown.admitted _ List.prefix_rfl (by simp)).notExcluded
    rw [decisionAt, scopeAt_concat] at notExcluded
    rcases scopeBeneath_eq_self_or_handed projector above with
      same | ⟨element, nested, notTop, reached, scope, handed⟩
    · rw [same] at notExcluded
      exact (notExcluded (excludes _ fit)).elim
    · have beneath := scopeBeneath_eq_handOn projector notTop
      rw [scope, handOn, handed, Option.getD_some] at beneath
      obtain ⟨array, first, last, selects, answer⟩ := project_nested handed
      have aboveIt : element ≠ above ++ [step] := by
        rintro rfl
        exact absurd reached.length_le (by simp)
      exact ⟨element, nested, array, first, last, notTop,
        reached.trans (List.prefix_append above [step]), aboveIt, scope, selects, answer,
        beneath⟩

def linesTree : FieldTree :=
  (FieldTree.empty.attachArray FieldTree.root "lines" (.object [])).attach 2 "sku"
    (.leaf ⟨0, 0, .scalar .string⟩ [])

def skuOfEveryLine : Path :=
  ⟨["lines", "*", "sku"]⟩

def firstLineRule : Projection :=
  .range ⟨["lines"]⟩ true 0 0 (some (.including ⟨["sku"]⟩))

/-- Shows the number of the first line by a projector of its own, and excludes the numbers of
all lines after that. -/
def firstLineProjector : Projector :=
  .list [
    .range ⟨["lines"]⟩ true 0 0 (some (.field skuOfEveryLine true false)),
    .field skuOfEveryLine false false]

def linesWith (numbers : List String) : Json :=
  .object [("lines", .array (numbers.map fun number => .object [("sku", .string number)]))]

def skuPlace (index : Nat) : Place :=
  [.member "lines", .item index, .member "sku"]

/-- The last rule excludes the numbers of all lines, and yet the number of the first one stays. -/
theorem handed_element_escapes_last_exclusion :
    compile linesTree (.list ([firstLineRule] ++ [.field skuOfEveryLine false false])) .root
        FieldTree.root = .ok firstLineProjector ∧
      (Place.path (skuPlace 0)).fits skuOfEveryLine = true ∧
      (linesWith ["A"]).Holds (skuPlace 0) (.string "A") ∧
      projectDocument firstLineProjector linesTree (linesWith ["A"]) =
        .ok (linesWith ["A"]) := by
  refine ⟨by rfl, by decide, ?_, by rfl⟩
  exact ⟨_, List.mem_singleton_self _, _, rfl, _, List.mem_singleton_self _, rfl⟩

/-- The range hands on no line but the first, so that the number of the second is withheld. -/
theorem second_line_is_hidden :
    compile linesTree (.list ([firstLineRule] ++ [.field skuOfEveryLine false false])) .root
        FieldTree.root = .ok firstLineProjector ∧
      (Place.path (skuPlace 1)).fits skuOfEveryLine = true ∧
      (linesWith ["A", "B"]).Holds (skuPlace 1) (.string "B") ∧
      ¬ firstLineProjector.Shown linesTree (skuPlace 1) (.string "B") ∧
      projectDocument firstLineProjector linesTree (linesWith ["A", "B"]) =
        .ok (Json.keep (firstLineProjector.Shown linesTree) (linesWith ["A", "B"]) []) ∧
      projectDocument firstLineProjector linesTree (linesWith ["A", "B"]) =
        .ok (linesWith ["A"]) := by
  have compiled :
      compile linesTree (.list ([firstLineRule] ++ [.field skuOfEveryLine false false])) .root
        FieldTree.root = .ok firstLineProjector := by
    rfl
  have fit : (Place.path (skuPlace 1)).fits skuOfEveryLine = true := by
    decide
  have found : (linesWith ["A", "B"]).Holds (skuPlace 1) (.string "B") :=
    ⟨_, List.mem_singleton_self _, _, rfl, _, List.mem_singleton_self _, rfl⟩
  have nothingHanded :
      ∀ element ∈ (skuPlace 1).inits,
        (firstLineProjector.project (Place.path element)).nested.isNone = true := by
    decide
  obtain ⟨kept, onlyHanded⟩ :=
    shown_of_last_exclusion compiled
      [("lines", .array [.object [("sku", .string "A")], .object [("sku", .string "B")]])]
  refine ⟨compiled, fit, found, fun shown => ?_, kept, by rfl⟩
  obtain ⟨element, nested, array, first, last, _, reached, _, _, _, answer, _⟩ :=
    onlyHanded _ _ fit shown
  have none := nothingHanded element ((List.mem_inits _ _).2 reached)
  rw [answer] at none
  cases none

end Schemata.Projector

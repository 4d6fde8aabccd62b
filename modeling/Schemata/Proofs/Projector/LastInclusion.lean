import Schemata.Proofs.Projector.Inclusion

/-!
# An inclusion declared last

An inclusion includes a field together with everything above it. So as the last rule of a list it
decides all the way down to the field, and other than an exclusion it is never passed by: no earlier
rule gets to hand on to a projector of its own.
-/
namespace Schemata.Projector

open Json (Step Place)

variable {projector : Projector} {tree : FieldTree}

private theorem compile_last_inclusion
    {rules : List Projection} {target : Path} {recursive : Bool}
    (compiled :
      compile tree (.list (rules ++ [.field target true recursive])) .root FieldTree.root =
        .ok projector) :
    target.isRoot = false ∧
      ∀ path : Path,
        path.leadsTo target = true →
          ∃ rule, projector.project path = .decided .included rule := by
  obtain ⟨earlier, last, lastCompiled, rfl⟩ := exists_last_of_compile compiled
  obtain ⟨notRoot, deep, _, rfl⟩ := compile_field_eq_ok lastCompiled
  refine ⟨notRoot, fun path leads => ?_⟩
  have included := project_list_concat earlier (project_inclusion deep leads) rfl
  exact ⟨_, included⟩

/-- In a list with an inclusion as its last rule, a value that the inclusion fits stays in the
projected document, whatever the other rules are, if the field tree knows the members on the way to
it. It stays at the place where everything on the way has gone: a scalar as it is, and an object or an
array with what the same list shows of it. -/
theorem last_inclusion_survives
    {rules : List Projection} {target : Path} {recursive : Bool}
    (compiled :
      compile tree (.list (rules ++ [.field target true recursive])) .root FieldTree.root =
        .ok projector)
    {members : Members} {place : Place} {value : Json}
    (found : (Json.object members).Holds place value)
    (fit : (Place.path place).fits target = true) (known : KnownTo tree place) :
    ∃ shown there,
      projectDocument projector tree (.object members) = .ok shown ∧
        Json.Retains (projector.Shown tree) [] (.object members) place value there ∧
        shown.Holds there (showIncluded tree projector (Place.path place) value) := by
  obtain ⟨notRoot, includesLeading⟩ := compile_last_inclusion compiled
  exact (includes_of_fits includesLeading fit).survives known (ne_nil_of_fits notRoot fit) found

/-- Hands the second line on to a projector that withholds its number, and then excludes all lines. -/
def withheldLines : List Projection :=
  [.range ⟨["lines"]⟩ true 1 1 (some (.excluding ⟨["sku"]⟩)), .excludingSubtree ⟨["lines"]⟩]

def skuOfSecondLine : Path :=
  ⟨["lines", "1", "sku"]⟩

/-- The number of the second line stays, and the line moves up as the first one is left out. -/
theorem second_line_survives :
    ∃ projector,
      compile linesTree (.list (withheldLines ++ [.field skuOfSecondLine true false])) .root
          FieldTree.root = .ok projector ∧
        (linesWith ["A", "B"]).Holds (skuPlace 1) (.string "B") ∧
        (Place.path (skuPlace 1)).fits skuOfSecondLine = true ∧
        KnownTo linesTree (skuPlace 1) ∧
        projectDocument projector linesTree (linesWith ["A", "B"]) = .ok (linesWith ["B"]) ∧
        ∃ there,
          Json.Retains (projector.Shown linesTree) [] (linesWith ["A", "B"]) (skuPlace 1)
              (.string "B") there ∧
            (linesWith ["B"]).Holds there (.string "B") := by
  obtain ⟨projector, compiled⟩ :
      ∃ projector,
        compile linesTree (.list (withheldLines ++ [.field skuOfSecondLine true false])) .root
          FieldTree.root = .ok projector :=
    ⟨_, rfl⟩
  have found : (linesWith ["A", "B"]).Holds (skuPlace 1) (.string "B") :=
    ⟨_, List.mem_singleton_self _, _, rfl, _, List.mem_singleton_self _, rfl⟩
  have fit : (Place.path (skuPlace 1)).fits skuOfSecondLine = true := by
    decide
  have known : KnownTo linesTree (skuPlace 1) :=
    (((knownTo_nil linesTree).member "lines" rfl).item 1).member "sku" rfl
  have projected :
      projectDocument projector linesTree (linesWith ["A", "B"]) = .ok (linesWith ["B"]) := by
    cases compiled
    rfl
  obtain ⟨shown, there, same, retained, holds⟩ :=
    last_inclusion_survives compiled found fit known
  cases projected.symm.trans same
  exact ⟨projector, compiled, found, fit, known, projected, there, retained, holds⟩

end Schemata.Projector

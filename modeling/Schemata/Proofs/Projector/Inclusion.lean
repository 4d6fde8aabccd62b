import Schemata.Proofs.Json.Kept
import Schemata.Proofs.Projector.LastExclusion
import Schemata.Proofs.Projector.SubDocument

/-!
# Places included all the way down

A place that a projector includes together with everything above it, and hands on to no other
projector, stays in the projected document with its value. The way down must not lead through
members that the field tree does not know.
-/
namespace Schemata.Projector

open Json (Step Place)

variable {projector : Projector} {tree : FieldTree}

/-- A projector includes a place and all places above it, and hands on at none of them. -/
def Includes (projector : Projector) (place : Place) : Prop :=
  ∀ upTo, upTo <+: place → upTo ≠ [] →
    ∃ rule, projector.project (Place.path upTo) = .decided .included rule

theorem Includes.of_prefix
    {place above : Place} (includes : projector.Includes place) (reached : above <+: place) :
    projector.Includes above :=
  fun _ earlier notTop => includes _ (earlier.trans reached) notTop

theorem Includes.scopeBeneath_eq_self
    {place : Place} (includes : projector.Includes place) :
    projector.scopeBeneath place = projector := by
  rcases scopeBeneath_eq_self_or_handed projector place with
    same | ⟨element, nested, notTop, reached, _, handed⟩
  · exact same
  · obtain ⟨rule, answer⟩ := includes element reached notTop
    rw [answer] at handed
    cases handed

theorem Includes.decisionAt_eq
    {place : Place} (includes : projector.Includes place) (notTop : place ≠ []) :
    projector.decisionAt place = .included := by
  have above := includes.of_prefix (List.dropLast_prefix place)
  obtain ⟨rule, answer⟩ := includes place List.prefix_rfl notTop
  rw [decisionAt, scopeAt, above.scopeBeneath_eq_self, answer]
  rfl

/-- The field tree knows every member on the way to a place. -/
def KnownTo (tree : FieldTree) (place : Place) : Prop :=
  ∀ upTo, upTo <+: place → KnownMember tree upTo

theorem knownTo_nil (tree : FieldTree) : KnownTo tree [] := by
  intro upTo reached above name same
  rw [List.prefix_nil.1 reached] at same
  simp at same

theorem KnownTo.step
    {place : Place} {step : Step} (known : KnownTo tree place)
    (here : KnownMember tree (place ++ [step])) :
    KnownTo tree (place ++ [step]) := by
  intro upTo reached
  rcases List.prefix_concat_iff.1 reached with rfl | above
  · exact here
  · exact known upTo above

theorem KnownTo.member
    {place : Place} (known : KnownTo tree place) (name : String)
    (resolved : (tree.resolve? (Place.path (place ++ [.member name]))).isSome = true) :
    KnownTo tree (place ++ [.member name]) :=
  known.step ((knownMember_member_iff tree place name).2 resolved)

theorem KnownTo.item
    {place : Place} (known : KnownTo tree place) (index : Nat) :
    KnownTo tree (place ++ [.item index]) :=
  known.step (knownMember_item tree place index)

theorem Includes.admitted
    {place : Place} (includes : projector.Includes place) (known : KnownTo tree place) :
    projector.Admitted tree place := by
  intro upTo reached notTop
  refine ⟨known upTo reached, ?_⟩
  rw [(includes.of_prefix reached).decisionAt_eq notTop]
  nofun

theorem includes_of_fits
    {target : Path} {place : Place}
    (includesLeading :
      ∀ path : Path,
        path.leadsTo target = true → ∃ rule, projector.project path = .decided .included rule)
    (fit : (Place.path place).fits target = true) :
    projector.Includes place := by
  intro upTo reached _
  have above : (Place.path upTo).segments <+: (Place.path place).segments :=
    reached.map Step.segment
  exact includesLeading _ (Path.leadsTo_of_prefix above (Path.leadsTo_of_fits fit))

theorem ne_nil_of_fits
    {target : Path} {place : Place} (notRoot : target.isRoot = false)
    (fit : (Place.path place).fits target = true) :
    place ≠ [] := by
  rintro rfl
  rw [Place.path_nil, Path.root_fits_iff, notRoot] at fit
  cases fit

private theorem exists_retains
    {place below : Place} {value part : Json} (found : value.Holds below part)
    (shown : projector.Shown tree (place ++ below) part) :
    ∃ there, Json.Retains (projector.Shown tree) place value below part there := by
  induction below generalizing place value with
  | nil =>
      cases found
      exact ⟨[], .here⟩
  | cons step rest hypothesis =>
      obtain ⟨next, here, foundRest⟩ := found
      rw [List.append_cons] at shown
      obtain ⟨there, retained⟩ := hypothesis foundRest shown
      exact ⟨_, .beneath here (.of_holds foundRest shown) retained⟩

/-- What the walk leaves of an included value that it does not hand on: of an object or an array what
the same projector shows beneath, and a scalar as it is. -/
def showIncluded (tree : FieldTree) (scope : Projector) (path : Path) : Json → Json
  | .object members => .object (showMembers tree members scope path)
  | .array items => .array (showItems tree items 0 scope path)
  | leaf => leaf

theorem showValue_of_decision_included
    {scope : Projector} {path : Path} (included : (scope.project path).decision = .included)
    (value : Json) :
    showValue tree value scope path = some (showIncluded tree (scope.handOn path) path value) := by
  cases value with
  | object members => rw [showValue, included]; rfl
  | array items => rw [showValue, included]; rfl
  | _ => rw [showValue_scalar rfl, included]; rfl

theorem showValue_of_included
    {scope rule : Projector} {path : Path}
    (answer : scope.project path = .decided .included rule) (value : Json) :
    showValue tree value scope path = some (showIncluded tree scope path value) := by
  have sameScope : scope.handOn path = scope := by
    rw [handOn, answer]
    rfl
  rw [showValue_of_decision_included (by rw [answer]; rfl), sameScope]

theorem Includes.keep_eq_showIncluded
    {place : Place} {value : Json} (includes : projector.Includes place) (notTop : place ≠ [])
    (shown : projector.Shown tree place value) :
    value.keep (projector.Shown tree) place =
      showIncluded tree projector (Place.path place) value := by
  obtain ⟨rule, answer⟩ := includes place List.prefix_rfl notTop
  obtain ⟨above, step, rfl⟩ := place.eq_nil_or_concat'.resolve_left notTop
  have sameScope := (includes.of_prefix (List.prefix_append above [step])).scopeBeneath_eq_self
  have walked := showValue_eq value above step fun _ => shown.admitted
  rw [sameScope, showValue_of_included answer, if_pos shown] at walked
  exact (Option.some.inj walked).symm

/-- A value at a place that is included all the way down stays in the projected document, at the
place where everything on the way to it has gone, and is shown there as an included one. -/
theorem Includes.survives
    {members : Members} {place : Place} {value : Json} (includes : projector.Includes place)
    (known : KnownTo tree place) (notTop : place ≠ [])
    (found : (Json.object members).Holds place value) :
    ∃ shown there,
      projectDocument projector tree (.object members) = .ok shown ∧
        Json.Retains (projector.Shown tree) [] (.object members) place value there ∧
        shown.Holds there (showIncluded tree projector (Place.path place) value) := by
  have isShown : projector.Shown tree place value :=
    .included (includes.admitted known) (includes.decisionAt_eq notTop)
  obtain ⟨there, retained⟩ :
      ∃ there,
        Json.Retains (projector.Shown tree) [] (.object members) place value there :=
    exists_retains found isShown
  refine ⟨_, there, projectDocument_eq_keep projector tree members, retained, ?_⟩
  rw [← includes.keep_eq_showIncluded notTop isShown]
  exact retained.holds_keep

end Schemata.Projector

import Schemata.Proofs.Projector.SubDocument
import Schemata.Proofs.Projector.Withheld

/-!
# Members that the tree does not know

Two documents that are the same without the members unknown to the field tree have the same
projection, unless an object about which nothing is said is empty in the one and holds nothing but
unknown members in the other: where nothing is included the empty object is shown, and the one that
projection empties is not.
-/
namespace Schemata.Projector

open Json (Step Place)

/-- What stays of a value without the members that the tree does not know. -/
def Known (tree : FieldTree) (place : Place) (_ : Json) : Prop :=
  KnownMember tree place

variable {projector : Projector} {tree : FieldTree}

theorem resolve?_of_not_knownMember
    {place : Place} {name : String}
    (unknown : ¬ KnownMember tree (place ++ [.member name])) :
    tree.resolve? (Place.path (place ++ [.member name])) = none := by
  rw [knownMember_member_iff] at unknown
  exact Option.not_isSome_iff_eq_none.1 unknown

theorem keepItems_known_cons (tree : FieldTree) (item : Json) (rest : List Json) (index : Nat)
    (place : Place) :
    Json.keepItems (Known tree) (item :: rest) index place =
      item.keep (Known tree) (place ++ [.item index]) ::
        Json.keepItems (Known tree) rest (index + 1) place := by
  rw [Json.keepItems]
  exact if_pos (knownMember_item tree place index)

private theorem isEmpty_keepItems_known (tree : FieldTree) (items : List Json) (index : Nat)
    (place : Place) :
    (Json.keepItems (Known tree) items index place).isEmpty = items.isEmpty := by
  cases items with
  | nil => rfl
  | cons item rest =>
      rw [keepItems_known_cons]
      rfl

theorem Admitted.step
    {place : Place} {step : Step} (reached : projector.Admitted tree place)
    (known : KnownMember tree (place ++ [step]))
    (notExcluded : projector.decisionAt (place ++ [step]) ≠ .excluded) :
    projector.Admitted tree (place ++ [step]) :=
  (admitted_concat_iff projector tree place step).2 ⟨reached, known, notExcluded⟩

private theorem showMembers_append_of_unknown
    {place : Place} {front : Members}
    (unknown : ∀ name value, (name, value) ∈ front → ¬ KnownMember tree (place ++ [.member name]))
    (back : Members) :
    showMembers tree (front ++ back) (projector.scopeBeneath place) (Place.path place) =
      showMembers tree back (projector.scopeBeneath place) (Place.path place) := by
  induction front with
  | nil => rfl
  | cons member rest hypothesis =>
      obtain ⟨name, value⟩ := member
      have first := resolve?_of_not_knownMember (unknown name value List.mem_cons_self)
      rw [List.cons_append, showMembers_cons_of_unknown first]
      exact hypothesis fun other hidden later =>
        unknown other hidden (List.mem_cons_of_mem _ later)

/-- An object that has members, and none that the tree knows. -/
def Hollow (tree : FieldTree) (place : Place) (members : Members) : Prop :=
  members ≠ [] ∧
    ∀ name value, (name, value) ∈ members → ¬ KnownMember tree (place ++ [.member name])

/-- The walk gets to a place beneath the document and nothing is decided about it, in a scope that
includes nothing. -/
structure Unmentioned (projector : Projector) (tree : FieldTree) (place : Place) : Prop where
  notTop : place ≠ []
  reached : projector.Admitted tree place
  undecided : projector.decisionAt place = .undecided
  noInclusion : (projector.scopeAt place).hasInclusion = false

/-- Of the objects that two values hold at an unmentioned place, both are hollow or neither. -/
def AgreeOnHollow (projector : Projector) (tree : FieldTree) (place : Place)
    (left right : Json) : Prop :=
  ∀ below first second,
    left.Holds below (.object first) → right.Holds below (.object second) →
      projector.Unmentioned tree (place ++ below) →
        (Hollow tree (place ++ below) first ↔ Hollow tree (place ++ below) second)

theorem AgreeOnHollow.here
    {place : Place} {left right : Members}
    (agree : AgreeOnHollow projector tree place (.object left) (.object right))
    (unmentioned : projector.Unmentioned tree place) :
    Hollow tree place left ↔ Hollow tree place right := by
  have atPlace := agree [] left right rfl rfl
  rw [List.append_nil] at atPlace
  exact atPlace unmentioned

theorem AgreeOnHollow.part
    {place : Place} {left right : Json}
    (agree : AgreeOnHollow projector tree place left right)
    {step : Step} {part other : Json}
    (found : left.HasPart step part) (foundOther : right.HasPart step other) :
    AgreeOnHollow projector tree (place ++ [step]) part other := by
  intro below first second holds holdsOther
  have beneath := agree (step :: below) first second ⟨part, found, holds⟩
    ⟨other, foundOther, holdsOther⟩
  rwa [List.append_cons] at beneath

private theorem hollow_iff {place : Place} {members : Members} :
    Hollow tree place members ↔
      members ≠ [] ∧ Json.keepMembers (Known tree) members place = [] := by
  rw [Json.keepMembers_eq_nil_iff]
  rfl

/-- Objects of the same known members are both empty or neither, if both are hollow or neither. -/
theorem isEmpty_eq_of_hollow_iff
    {place : Place} {left right : Members}
    (same :
      Json.keepMembers (Known tree) left place = Json.keepMembers (Known tree) right place)
    (bothHollow : Hollow tree place left ↔ Hollow tree place right) :
    left.isEmpty = right.isEmpty := by
  rw [hollow_iff, hollow_iff, ← same] at bothHollow
  rw [Bool.eq_iff_iff, List.isEmpty_iff, List.isEmpty_iff]
  by_cases nothing : Json.keepMembers (Known tree) left place = []
  · simpa [nothing, not_iff_not] using bothHollow
  · constructor
    · rintro rfl
      exact (nothing rfl).elim
    · rintro rfl
      exact (nothing same).elim

mutual

/-- Of two values with the same known part the walk shows the same, if they agree on hollow
objects. -/
theorem showValue_eq_of_known_eq :
    ∀ (left right : Json) (place : Place), place ≠ [] →
      (projector.decisionAt place ≠ .excluded → projector.Admitted tree place) →
      AgreeOnHollow projector tree place left right →
      left.keep (Known tree) place = right.keep (Known tree) place →
      showValue tree left (projector.scopeAt place) (Place.path place) =
        showValue tree right (projector.scopeAt place) (Place.path place)
  | .object left, right, place, notTop, admitted, agree, same => by
      rw [Json.keep] at same
      obtain ⟨right, rfl, sameMembers⟩ := Json.exists_of_keep_eq_object _ same.symm
      by_cases excluded : projector.decisionAt place = .excluded
      · rw [showValue_of_excluded excluded, showValue_of_excluded excluded]
      · have reached := admitted excluded
        have sameShown := showMembers_eq_of_known_eq left right place reached
          (fun _ _ _ found foundOther => agree.part found foundOther) sameMembers.symm
        refine showValue_object_congr notTop sameShown fun undecided noInclusion => ?_
        exact isEmpty_eq_of_hollow_iff sameMembers.symm
          (agree.here ⟨notTop, reached, undecided, noInclusion⟩)
  | .array left, right, place, notTop, admitted, agree, same => by
      rw [Json.keep] at same
      obtain ⟨right, rfl, sameItems⟩ := Json.exists_of_keep_eq_array _ same.symm
      by_cases excluded : projector.decisionAt place = .excluded
      · rw [showValue_of_excluded excluded, showValue_of_excluded excluded]
      · have sameShown := showItems_eq_of_known_eq left right 0 place (admitted excluded)
          (fun index _ _ found foundOther => by
            rw [Nat.zero_add]
            exact agree.part found foundOther) sameItems.symm
        refine showValue_array_congr notTop sameShown ?_
        rw [← isEmpty_keepItems_known tree left 0 place,
          ← isEmpty_keepItems_known tree right 0 place, sameItems]
  | .null, _, _, _, _, _, same => by
      rw [Json.eq_of_keep_scalar_eq _ rfl same]
  | .bool _, _, _, _, _, _, same => by
      rw [Json.eq_of_keep_scalar_eq _ rfl same]
  | .number _, _, _, _, _, _, same => by
      rw [Json.eq_of_keep_scalar_eq _ rfl same]
  | .string _, _, _, _, _, _, same => by
      rw [Json.eq_of_keep_scalar_eq _ rfl same]

private theorem showMembers_eq_of_known_eq :
    ∀ (left right : Members) (place : Place),
      projector.Admitted tree place →
      (∀ name part other, (name, part) ∈ left → (name, other) ∈ right →
        AgreeOnHollow projector tree (place ++ [.member name]) part other) →
      Json.keepMembers (Known tree) left place = Json.keepMembers (Known tree) right place →
      showMembers tree left (projector.scopeBeneath place) (Place.path place) =
        showMembers tree right (projector.scopeBeneath place) (Place.path place)
  | [], right, place, reached, agree, same => by
      rw [Json.keepMembers] at same
      have unknown := (Json.keepMembers_eq_nil_iff _ _ _).1 same.symm
      rw [← List.append_nil right, showMembers_append_of_unknown unknown]
  | (name, part) :: rest, right, place, reached, agree, same => by
      rw [Json.keepMembers] at same
      by_cases known : Known tree (place ++ [.member name]) part
      · rw [if_pos known] at same
        obtain ⟨front, other, back, rfl, unknown, samePart, sameRest⟩ :=
          Json.exists_of_keepMembers_eq_cons _ same.symm
        rw [showMembers_append_of_unknown unknown]
        refine showMembers_cons_congr ?_ ?_
        · exact showValue_eq_of_known_eq part other _ (by simp)
            (reached.step known) (agree name part other (by simp) (by simp)) samePart.symm
        · refine showMembers_eq_of_known_eq rest back place reached ?_ sameRest.symm
          intro later first second found foundOther
          exact agree later first second (List.mem_cons_of_mem _ found) (by simp [foundOther])
      · rw [if_neg known] at same
        rw [showMembers_cons_of_unknown (resolve?_of_not_knownMember known)]
        refine showMembers_eq_of_known_eq rest right place reached ?_ same
        intro later first second found foundOther
        exact agree later first second (List.mem_cons_of_mem _ found) foundOther

theorem showItems_eq_of_known_eq :
    ∀ (left right : List Json) (index : Nat) (place : Place),
      projector.Admitted tree place →
      (∀ offset part other, left[offset]? = some part → right[offset]? = some other →
        AgreeOnHollow projector tree (place ++ [.item (index + offset)]) part other) →
      Json.keepItems (Known tree) left index place =
        Json.keepItems (Known tree) right index place →
      showItems tree left index (projector.scopeBeneath place) (Place.path place) =
        showItems tree right index (projector.scopeBeneath place) (Place.path place)
  | [], [], _, _, _, _, _ => rfl
  | [], item :: rest, index, place, _, _, same => by
      rw [keepItems_known_cons, Json.keepItems] at same
      cases same
  | item :: rest, [], index, place, _, _, same => by
      rw [keepItems_known_cons, Json.keepItems] at same
      cases same
  | item :: rest, other :: more, index, place, reached, agree, same => by
      rw [keepItems_known_cons, keepItems_known_cons] at same
      obtain ⟨sameFirst, sameRest⟩ := List.cons.inj same
      refine showItems_cons_congr ?_ ?_
      · exact showValue_eq_of_known_eq item other _ (by simp)
          (reached.step (knownMember_item tree place index)) (agree 0 item other rfl rfl) sameFirst
      · refine showItems_eq_of_known_eq rest more (index + 1) place reached ?_ sameRest
        intro offset part part' found foundOther
        have later := agree (offset + 1) part part' found foundOther
        rwa [← Nat.add_assoc, Nat.add_right_comm] at later

end

/-- An unmentioned object without known members is shown exactly if it is empty. -/
theorem Unmentioned.shown_iff_eq_nil
    {place : Place} {members : Members}
    (unmentioned : projector.Unmentioned tree place)
    (unknown :
      ∀ name value, (name, value) ∈ members → ¬ KnownMember tree (place ++ [.member name])) :
    projector.Shown tree place (.object members) ↔ members = [] := by
  have noPartShown :
      ¬ ∃ step part,
        (Json.object members).HasPart step part ∧ projector.Shown tree (place ++ [step]) part := by
    rintro ⟨step, part, found, shown⟩
    cases step with
    | member name => exact unknown name part found shown.knownMember
    | item index => exact found
  rw [shown_iff, unmentioned.undecided, unmentioned.noInclusion]
  simp [unmentioned.reached, noPartShown, Json.isBare]

/-- Two documents with the same known part that agree on hollow objects have the same projection.
Where no condition was set, at the unmentioned places, it does show whether an object without known
members is empty. -/
theorem projectDocument_eq_of_known_eq
    {left right : Members}
    (same :
      (Json.object left).keep (Known tree) [] = (Json.object right).keep (Known tree) [])
    (agree : AgreeOnHollow projector tree [] (.object left) (.object right)) :
    (projectDocument projector tree (.object left) =
        .ok (Json.keep (projector.Shown tree) (.object left) []) ∧
      projectDocument projector tree (.object right) =
        projectDocument projector tree (.object left)) ∧
      ∀ place members, projector.Unmentioned tree place →
        (∀ name value, (name, value) ∈ members →
          ¬ KnownMember tree (place ++ [.member name])) →
        (projector.Shown tree place (.object members) ↔ members = []) := by
  rw [Json.keep, Json.keep] at same
  have sameShown := showMembers_eq_of_known_eq left right [] (admitted_nil projector tree)
    (fun _ _ _ found foundOther => agree.part found foundOther) (Json.object.inj same)
  rw [scopeBeneath_nil, Place.path_nil] at sameShown
  refine ⟨⟨projectDocument_eq_keep projector tree left, ?_⟩, ?_⟩
  · rw [projectDocument, projectDocument, sameShown]
  · intro place members unmentioned unknown
    exact unmentioned.shown_iff_eq_nil unknown

def documentOf (lines : List Json) : Members :=
  [("lines", .array lines)]

private theorem exists_line_of_holds
    {lines : List Json} {below : Place} {members : Members} (beneath : below ≠ [])
    (found : (Json.object (documentOf lines)).Holds below (.object members)) :
    ∃ index rest line,
      below = .member "lines" :: .item index :: rest ∧
        lines[index]? = some line ∧ line.Holds rest (.object members) := by
  cases below with
  | nil => exact (beneath rfl).elim
  | cons step more =>
      obtain ⟨array, here, foundMore⟩ := found
      cases step with
      | item index => cases here
      | member name =>
          cases List.mem_singleton.1 here
          cases more with
          | nil => cases foundMore
          | cons next rest =>
              obtain ⟨line, there, foundRest⟩ := foundMore
              cases next with
              | member name => cases there
              | item index => exact ⟨index, rest, line, rfl, there, foundRest⟩

/-- An object of one scalar holds no other object. -/
theorem eq_nil_of_holds_object
    {name : String} {value : Json} (scalar : value.isScalar = true)
    {rest : Place} {members : Members}
    (found : (Json.object [(name, value)]).Holds rest (.object members)) :
    rest = [] ∧ members = [(name, value)] := by
  cases rest with
  | nil =>
      cases found
      exact ⟨rfl, rfl⟩
  | cons step more =>
      obtain ⟨part, here, foundMore⟩ := found
      cases step with
      | item index => cases here
      | member other =>
          cases List.mem_singleton.1 here
          cases more with
          | nil =>
              cases foundMore
              cases scalar
          | cons next rest =>
              obtain ⟨deeper, there, _⟩ := foundMore
              exact (Json.not_hasPart_of_isBare (Json.isBare_of_isScalar scalar) there).elim

private theorem known_lines : KnownMember linesTree [.member "lines"] :=
  (knownMember_member_iff linesTree [] "lines").2 (by rfl)

private theorem unknown_of_line
    (name : String)
    (unresolved : (linesTree.resolve? ⟨["lines", "0", name]⟩).isSome = false) :
    ¬ KnownMember linesTree [.member "lines", .item 0, .member name] := by
  intro known
  have resolved := (knownMember_member_iff linesTree [.member "lines", .item 0] name).1 known
  exact Bool.false_ne_true (unresolved.symm.trans resolved)

/-- An empty line is shown and a hollow one is not, though they have the same known part. -/
theorem hollow_line_is_told_from_empty :
    compile linesTree (.list []) .root FieldTree.root = .ok (.list []) ∧
      (Json.object (documentOf [.object []])).keep (Known linesTree) [] =
        (Json.object (documentOf [.object [("note", .null)]])).keep (Known linesTree) [] ∧
      projectDocument (.list []) linesTree (.object (documentOf [.object []])) =
        .ok (.object (documentOf [.object []])) ∧
      projectDocument (.list []) linesTree (.object (documentOf [.object [("note", .null)]])) =
        .ok (.object []) ∧
      projectDocument (.list []) linesTree (.object (documentOf [.object []])) ≠
        projectDocument (.list []) linesTree
          (.object (documentOf [.object [("note", .null)]])) := by
  have note := unknown_of_line "note" (by rfl)
  have empty :
      projectDocument (.list []) linesTree (.object (documentOf [.object []])) =
        .ok (.object (documentOf [.object []])) := by
    rfl
  have hollow :
      projectDocument (.list []) linesTree (.object (documentOf [.object [("note", .null)]])) =
        .ok (.object []) := by
    rfl
  refine ⟨by rfl, ?_, empty, hollow, ?_⟩
  · simp [documentOf, Json.keep, Json.keepMembers, keepItems_known_cons, Known, known_lines, note]
  · rw [empty, hollow]
    simp [documentOf]

/-- It does not show what the one member of a hollow line is. -/
theorem hollow_lines_are_alike :
    (Json.object (documentOf [.object [("note", .null)]])).keep (Known linesTree) [] =
        (Json.object (documentOf [.object [("draft", .bool true)]])).keep (Known linesTree) [] ∧
      AgreeOnHollow (.list []) linesTree [] (.object (documentOf [.object [("note", .null)]]))
        (.object (documentOf [.object [("draft", .bool true)]])) ∧
      projectDocument (.list []) linesTree (.object (documentOf [.object [("draft", .bool true)]])) =
        projectDocument (.list []) linesTree (.object (documentOf [.object [("note", .null)]])) := by
  have note := unknown_of_line "note" (by rfl)
  have draft := unknown_of_line "draft" (by rfl)
  refine ⟨?same, ?agree, (projectDocument_eq_of_known_eq ?same ?agree).1.2⟩
  · simp [documentOf, Json.keep, Json.keepMembers, keepItems_known_cons, Known, known_lines, note,
      draft]
  · intro below first second found foundOther unmentioned
    obtain ⟨index, rest, line, rfl, here, inLine⟩ := exists_line_of_holds unmentioned.notTop found
    obtain ⟨_, _, other, same, there, inOther⟩ := exists_line_of_holds unmentioned.notTop foundOther
    cases same
    cases index with
    | succ later => cases here
    | zero =>
        cases here
        cases there
        obtain ⟨rfl, rfl⟩ := eq_nil_of_holds_object rfl inLine
        obtain ⟨_, rfl⟩ := eq_nil_of_holds_object rfl inOther
        simp [Hollow, note, draft]

end Schemata.Projector

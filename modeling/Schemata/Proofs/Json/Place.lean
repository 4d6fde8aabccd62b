import Schemata.Path
import Schemata.Json.Basic

/-!
# Places in a value

A place leads from a value to one of its parts, a member or an item at a time. Other than a path
it tells members from items, and its indexes are those of the value itself, whatever becomes of
the items in front. A value of which only some places are kept is again a value.
-/
namespace Schemata.Json

/-- One step down into a value: to a member of an object or to an item of an array. -/
inductive Step where
  | member (name : String)
  | item (index : Nat)
deriving DecidableEq

def Step.segment : Step → String
  | member name => name
  | item index => index.repr

abbrev Place := List Step

/-- The path that a place writes, with the indexes of its items in decimal digits. -/
def Place.path (place : Place) : Path :=
  ⟨place.map Step.segment⟩

@[simp]
theorem Place.path_nil :
    Place.path [] = .root :=
  rfl

theorem Place.path_concat (place : Place) (step : Step) :
    Place.path (place ++ [step]) = (Place.path place).child step.segment := by
  simp [Place.path, Path.child]

/-- A value has a part one step down. -/
def HasPart : Json → Step → Json → Prop
  | object members, .member name, part => (name, part) ∈ members
  | array items, .item index, part => items[index]? = some part
  | _, _, _ => False

/-- A value holds another one at a place. -/
def Holds : Json → Place → Json → Prop
  | value, [], found => found = value
  | value, step :: rest, found => ∃ part, value.HasPart step part ∧ part.Holds rest found

/-- A value that is neither an object nor an array. -/
def isScalar : Json → Bool
  | object _ => false
  | array _ => false
  | _ => true

/-- A value without parts: a scalar, or an empty object or array. -/
def isBare : Json → Bool
  | object members => members.isEmpty
  | array items => items.isEmpty
  | _ => true

theorem isBare_of_isScalar
    {value : Json} (scalar : value.isScalar = true) :
    value.isBare = true := by
  cases value with
  | object members => cases scalar
  | array items => cases scalar
  | _ => rfl

theorem not_hasPart_of_isBare
    {value part : Json} {step : Step} (bare : value.isBare = true) :
    ¬ value.HasPart step part := by
  intro found
  cases value with
  | object members =>
      have empty : members = [] := List.isEmpty_iff.1 bare
      cases step <;> simp [HasPart, empty] at found
  | array items =>
      have empty : items = [] := List.isEmpty_iff.1 bare
      cases step <;> simp [HasPart, empty] at found
  | _ => exact found

section Keep

open Classical

variable (kept : Place → Json → Prop)

mutual

/-- What is left of a value at a place when only the parts that are kept stay in it. -/
noncomputable def keep : Json → Place → Json
  | object members, place => object (keepMembers members place)
  | array items, place => array (keepItems items 0 place)
  | scalar, _ => scalar

/-- The members of an object at a place that are kept, and what is left of them. -/
noncomputable def keepMembers : List (String × Json) → Place → Members
  | [], _ => []
  | (name, value) :: rest, place =>
      if kept (place ++ [.member name]) value then
        (name, keep value (place ++ [.member name])) :: keepMembers rest place
      else keepMembers rest place

/-- The items of an array at a place that are kept, and what is left of them. The first of the
items has a given index. -/
noncomputable def keepItems : List Json → Nat → Place → List Json
  | [], _, _ => []
  | item :: rest, index, place =>
      if kept (place ++ [.item index]) item then
        keep item (place ++ [.item index]) :: keepItems rest (index + 1) place
      else keepItems rest (index + 1) place

end

theorem keep_scalar
    {value : Json} (scalar : value.isScalar = true) (place : Place) :
    keep kept value place = value := by
  cases value with
  | object members => cases scalar
  | array items => cases scalar
  | _ => simp only [keep]

theorem exists_of_keep_eq_object
    {value : Json} {place : Place} {shown : Members}
    (left : keep kept value place = object shown) :
    ∃ members, value = object members ∧ keepMembers kept members place = shown := by
  cases value with
  | object members =>
      rw [keep] at left
      exact ⟨members, rfl, object.inj left⟩
  | _ => simp [keep] at left

theorem exists_of_keep_eq_array
    {value : Json} {place : Place} {shown : List Json}
    (left : keep kept value place = array shown) :
    ∃ items, value = array items ∧ keepItems kept items 0 place = shown := by
  cases value with
  | array items =>
      rw [keep] at left
      exact ⟨items, rfl, array.inj left⟩
  | _ => simp [keep] at left

theorem eq_of_keep_scalar_eq
    {scalar value : Json} (isScalar : scalar.isScalar = true) {place : Place}
    (same : keep kept scalar place = keep kept value place) :
    scalar = value := by
  rw [keep_scalar kept isScalar] at same
  cases value with
  | object members =>
      rw [same, keep] at isScalar
      cases isScalar
  | array items =>
      rw [same, keep] at isScalar
      cases isScalar
  | _ => rwa [keep_scalar kept rfl] at same

/-- If some member stays, then it is the first one that is kept. -/
theorem exists_of_keepMembers_eq_cons
    {members shown : Members} {place : Place} {name : String} {part : Json}
    (left : keepMembers kept members place = (name, part) :: shown) :
    ∃ front value back,
      members = front ++ (name, value) :: back ∧
        (∀ other hidden, (other, hidden) ∈ front → ¬ kept (place ++ [.member other]) hidden) ∧
        keep kept value (place ++ [.member name]) = part ∧
        keepMembers kept back place = shown := by
  induction members with
  | nil =>
      rw [keepMembers] at left
      cases left
  | cons member rest hypothesis =>
      obtain ⟨first, value⟩ := member
      rw [keepMembers] at left
      by_cases stays : kept (place ++ [.member first]) value
      · rw [if_pos stays] at left
        obtain ⟨sameFirst, sameRest⟩ := List.cons.inj left
        obtain ⟨rfl, samePart⟩ := Prod.mk.inj sameFirst
        exact ⟨[], value, rest, rfl, by simp, samePart, sameRest⟩
      · rw [if_neg stays] at left
        obtain ⟨front, found, back, rfl, hidden, samePart, sameRest⟩ := hypothesis left
        refine ⟨(first, value) :: front, found, back, rfl, ?_, samePart, sameRest⟩
        intro other value inFront
        rcases List.mem_cons.1 inFront with same | later
        · cases same
          exact stays
        · exact hidden other value later

theorem keepMembers_eq_nil_iff
    (members : Members) (place : Place) :
    keepMembers kept members place = [] ↔
      ∀ name value, (name, value) ∈ members → ¬ kept (place ++ [.member name]) value := by
  induction members with
  | nil => simp [keepMembers]
  | cons member rest hypothesis =>
      obtain ⟨name, value⟩ := member
      by_cases first : kept (place ++ [.member name]) value
      · simp only [keepMembers, if_pos first]
        refine ⟨fun impossible => (List.cons_ne_nil _ _ impossible).elim, fun none => ?_⟩
        exact (none name value List.mem_cons_self first).elim
      · rw [keepMembers, if_neg first, hypothesis]
        constructor
        · intro none other found member
          rcases List.mem_cons.1 member with same | later
          · cases same
            exact first
          · exact none other found later
        · intro none other found later
          exact none other found (List.mem_cons_of_mem _ later)

theorem keepItems_eq_nil_iff
    (items : List Json) (start : Nat) (place : Place) :
    keepItems kept items start place = [] ↔
      ∀ index item, items[index]? = some item →
        ¬ kept (place ++ [.item (start + index)]) item := by
  induction items generalizing start with
  | nil => simp [keepItems]
  | cons item rest hypothesis =>
      by_cases first : kept (place ++ [.item start]) item
      · simp only [keepItems, if_pos first]
        refine ⟨fun impossible => (List.cons_ne_nil _ _ impossible).elim, fun none => ?_⟩
        exact (none 0 item rfl first).elim
      · rw [keepItems, if_neg first, hypothesis]
        constructor
        · intro none index found here
          cases index with
          | zero =>
              cases here
              exact first
          | succ earlier =>
              have later := none earlier found here
              rwa [Nat.add_right_comm] at later
        · intro none index found later
          have here := none (index + 1) found later
          rwa [← Nat.add_assoc, Nat.add_right_comm] at here

end Keep

/-- No object in a value has two members of one name. -/
def NamesApart (value : Json) : Prop :=
  ∀ place members, value.Holds place (.object members) → (members.map Prod.fst).Nodup

theorem NamesApart.part
    {value part : Json} {step : Step} (apart : value.NamesApart) (found : value.HasPart step part) :
    part.NamesApart :=
  fun place members holds => apart (step :: place) members ⟨part, found, holds⟩

theorem NamesApart.member
    {members : Members} {name : String} {value : Json} (apart : (object members).NamesApart)
    (listed : (name, value) ∈ members) :
    value.NamesApart :=
  apart.part (show (object members).HasPart (.member name) value from listed)

/-- It is enough that names are apart in an object itself and in the parts of a value. -/
theorem namesApart_of_parts
    {value : Json} (here : ∀ members, value = .object members → (members.map Prod.fst).Nodup)
    (parts : ∀ step part, value.HasPart step part → part.NamesApart) :
    value.NamesApart := by
  intro place members holds
  cases place with
  | nil => exact here members holds.symm
  | cons step rest =>
      obtain ⟨part, found, holdsRest⟩ := holds
      exact parts step part found rest members holdsRest

theorem namesApart_scalar {value : Json} (scalar : value.isScalar = true) : value.NamesApart := by
  refine namesApart_of_parts ?_ fun step part found => ?_
  · rintro members rfl
    cases scalar
  · exact (not_hasPart_of_isBare (isBare_of_isScalar scalar) found).elim

theorem namesApart_object
    {members : Members} (here : (members.map Prod.fst).Nodup)
    (parts : ∀ member ∈ members, member.2.NamesApart) :
    (object members).NamesApart := by
  refine namesApart_of_parts ?_ fun step part found => ?_
  · rintro others ⟨⟩
    exact here
  · cases step with
    | member name => exact parts (name, part) found
    | item index => cases found

theorem namesApart_array {items : List Json} (parts : ∀ item ∈ items, item.NamesApart) :
    (array items).NamesApart := by
  refine namesApart_of_parts ?_ fun step part found => ?_
  · nofun
  · cases step with
    | member name => cases found
    | item index => exact parts part (List.mem_of_getElem? found)

end Schemata.Json

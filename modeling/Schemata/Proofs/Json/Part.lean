import Schemata.Proofs.Json.Place

/-!
# Parts of a value

A value is a part of another one if it comes of that by leaving out members and items, at any
depth. What stays keeps its order, its name and, if it is a scalar, its value. A place in the whole
tells what stayed, since an item of the part may stand at another index than it does in the whole.
-/
namespace Schemata.Json

variable {held kept : Place → Json → Prop}

mutual

/-- A value is a part of the value at a place. Of whatever stays beneath it, place and value in the
whole are held to a condition. -/
inductive PartAt (held : Place → Json → Prop) : Place → Json → Json → Prop
  | scalar {place : Place} {value : Json} :
      value.isScalar = true →
      PartAt held place value value
  | object {place : Place} {shown members : Members} :
      MembersAt held place shown members →
      PartAt held place (.object shown) (.object members)
  | array {place : Place} {shown items : List Json} :
      ItemsAt held place 0 shown items →
      PartAt held place (.array shown) (.array items)

/-- Members that stay of those of an object at a place. -/
inductive MembersAt (held : Place → Json → Prop) : Place → Members → Members → Prop
  | nil {place : Place} :
      MembersAt held place [] []
  | leftOut {place : Place} {shown members : Members} (member : String × Json) :
      MembersAt held place shown members →
      MembersAt held place shown (member :: members)
  | stays {place : Place} {name : String} {part value : Json} {shown members : Members} :
      held (place ++ [.member name]) value →
      PartAt held (place ++ [.member name]) part value →
      MembersAt held place shown members →
      MembersAt held place ((name, part) :: shown) ((name, value) :: members)

/-- Items that stay of those of an array at a place, the first of which has a given index. -/
inductive ItemsAt (held : Place → Json → Prop) :
    Place → Nat → List Json → List Json → Prop
  | nil {place : Place} {index : Nat} :
      ItemsAt held place index [] []
  | leftOut {place : Place} {index : Nat} {shown items : List Json} (item : Json) :
      ItemsAt held place (index + 1) shown items →
      ItemsAt held place index shown (item :: items)
  | stays {place : Place} {index : Nat} {part item : Json} {shown items : List Json} :
      held (place ++ [.item index]) item →
      PartAt held (place ++ [.item index]) part item →
      ItemsAt held place (index + 1) shown items →
      ItemsAt held place index (part :: shown) (item :: items)

end

mutual

/-- What is left when only some places are kept is a part. -/
theorem partAt_keep (holds : ∀ place value, kept place value → held place value) :
    ∀ (value : Json) (place : Place), PartAt held place (keep kept value place) value
  | .object members, place => by
      rw [keep]
      exact .object (membersAt_keepMembers holds members place)
  | .array items, place => by
      rw [keep]
      exact .array (itemsAt_keepItems holds items 0 place)
  | .null, _ => .scalar rfl
  | .bool _, _ => .scalar rfl
  | .number _, _ => .scalar rfl
  | .string _, _ => .scalar rfl

theorem membersAt_keepMembers (holds : ∀ place value, kept place value → held place value) :
    ∀ (members : Members) (place : Place),
      MembersAt held place (keepMembers kept members place) members
  | [], place => by
      rw [keepMembers]
      exact .nil
  | (name, value) :: rest, place => by
      have others := membersAt_keepMembers holds rest place
      rw [keepMembers]
      split
      · next stays =>
          have part := partAt_keep holds value (place ++ [.member name])
          exact .stays (holds _ _ stays) part others
      · exact .leftOut _ others

theorem itemsAt_keepItems (holds : ∀ place value, kept place value → held place value) :
    ∀ (items : List Json) (index : Nat) (place : Place),
      ItemsAt held place index (keepItems kept items index place) items
  | [], index, place => by
      rw [keepItems]
      exact .nil
  | item :: rest, index, place => by
      have others := itemsAt_keepItems holds rest (index + 1) place
      rw [keepItems]
      split
      · next stays =>
          have part := partAt_keep holds item (place ++ [.item index])
          exact .stays (holds _ _ stays) part others
      · exact .leftOut _ others

end

/-- A value comes of another one by leaving out members and items, and nothing else. -/
def IsPart (part whole : Json) : Prop :=
  PartAt (fun _ _ => True) [] part whole

section Fewer

variable {fewer : Place → Json → Prop}

mutual

/-- What is left when fewer places are kept is a part of what is left when more are. -/
theorem partAt_keep_of_fewer (still : ∀ place value, fewer place value → kept place value) :
    ∀ (value : Json) (place inWhole : Place),
      PartAt (fun _ _ => True) inWhole (keep fewer value place) (keep kept value place)
  | .object members, place, inWhole => by
      rw [keep, keep]
      exact .object (membersAt_keepMembers_of_fewer still members place inWhole)
  | .array items, place, inWhole => by
      rw [keep, keep]
      exact .array (itemsAt_keepItems_of_fewer still items 0 place 0 inWhole)
  | .null, _, _ => .scalar rfl
  | .bool _, _, _ => .scalar rfl
  | .number _, _, _ => .scalar rfl
  | .string _, _, _ => .scalar rfl

theorem membersAt_keepMembers_of_fewer
    (still : ∀ place value, fewer place value → kept place value) :
    ∀ (members : Members) (place inWhole : Place),
      MembersAt (fun _ _ => True) inWhole (keepMembers fewer members place)
        (keepMembers kept members place)
  | [], place, inWhole => by
      rw [keepMembers, keepMembers]
      exact .nil
  | (name, value) :: rest, place, inWhole => by
      have others := membersAt_keepMembers_of_fewer still rest place inWhole
      rw [keepMembers, keepMembers]
      by_cases stays : fewer (place ++ [.member name]) value
      · have part := partAt_keep_of_fewer still value (place ++ [.member name])
          (inWhole ++ [.member name])
        rw [if_pos stays, if_pos (still _ _ stays)]
        exact .stays trivial part others
      · rw [if_neg stays]
        by_cases stayed : kept (place ++ [.member name]) value
        · rw [if_pos stayed]
          exact .leftOut _ others
        · rwa [if_neg stayed]

theorem itemsAt_keepItems_of_fewer
    (still : ∀ place value, fewer place value → kept place value) :
    ∀ (items : List Json) (index : Nat) (place : Place) (indexInWhole : Nat) (inWhole : Place),
      ItemsAt (fun _ _ => True) inWhole indexInWhole (keepItems fewer items index place)
        (keepItems kept items index place)
  | [], index, place, indexInWhole, inWhole => by
      rw [keepItems, keepItems]
      exact .nil
  | item :: rest, index, place, indexInWhole, inWhole => by
      have others := itemsAt_keepItems_of_fewer still rest (index + 1) place
      rw [keepItems, keepItems]
      by_cases stays : fewer (place ++ [.item index]) item
      · have part := partAt_keep_of_fewer still item (place ++ [.item index])
          (inWhole ++ [.item indexInWhole])
        rw [if_pos stays, if_pos (still _ _ stays)]
        exact .stays trivial part (others (indexInWhole + 1) inWhole)
      · rw [if_neg stays]
        by_cases stayed : kept (place ++ [.item index]) item
        · rw [if_pos stayed]
          exact .leftOut _ (others (indexInWhole + 1) inWhole)
        · rw [if_neg stayed]
          exact others indexInWhole inWhole

end

end Fewer

end Schemata.Json

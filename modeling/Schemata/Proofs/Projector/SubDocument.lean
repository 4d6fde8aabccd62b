import Schemata.Proofs.Json.Part
import Schemata.Proofs.Projector.Pointwise

/-!
# Projected documents are parts of documents

A projected document comes of the document by leaving out members and items, and no member stays
that the field tree does not know.
-/
namespace Schemata.Projector

open Json (Step Place)

/-- If the last step to a place leads to a member, then the field tree knows the path. -/
def KnownMember (tree : FieldTree) (place : Place) : Prop :=
  ∀ above name, place = above ++ [.member name] →
    (tree.resolve? (Place.path place)).isSome = true

theorem knownMember_member_iff (tree : FieldTree) (place : Place) (name : String) :
    KnownMember tree (place ++ [.member name]) ↔
      (tree.resolve? (Place.path (place ++ [.member name]))).isSome = true :=
  ⟨fun known => known place name rfl, fun resolved _ _ _ => resolved⟩

theorem knownMember_item (tree : FieldTree) (place : Place) (index : Nat) :
    KnownMember tree (place ++ [.item index]) := by
  intro above name same
  have sameStep := (List.append_inj' same rfl).2
  cases sameStep

theorem Shown.knownMember
    {projector : Projector} {tree : FieldTree} {place : Place} {value : Json}
    (shown : projector.Shown tree place value) :
    KnownMember tree place := by
  intro above name same
  have notTop : place ≠ [] := by
    simp [same]
  have unbarred := shown.admitted place List.prefix_rfl notTop
  exact unbarred.known above name same

/-- Projecting an object gives an object of some of its members, in their order and with parts of
their values: objects with some of the members, arrays with some of the items, in their order, and
scalars as they are. Each member that stays, at any depth, has a path in the document that the field
tree resolves. -/
theorem projectDocument_partAt
    (projector : Projector) (tree : FieldTree) (members : Members) :
    ∃ shown,
      projectDocument projector tree (.object members) = .ok (.object shown) ∧
        Json.PartAt (fun place _ => KnownMember tree place) []
          (.object shown) (.object members) := by
  have known :
      ∀ place value, projector.Shown tree place value → KnownMember tree place :=
    fun _ _ shown => shown.knownMember
  have part := Json.partAt_keep known (.object members) []
  rw [Json.keep] at part
  refine ⟨_, ?_, part⟩
  rw [projectDocument_eq_keep, Json.keep]

end Schemata.Projector

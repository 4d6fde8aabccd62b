import Schemata.Json.Reader
import Schemata.Proofs.Attempt
import Schemata.Proofs.Json.Members
import Schemata.Proofs.Json.Place

/-!
# What is read from a text

In a value that is read from a text no object has two members of one name, whatever the text has:
a name that occurs again gives its member another value.
-/
namespace Schemata.Json

/-- Whatever is read has a property. -/
def Yields (holds : Json → Prop) (outcome : Except Failure (Json × Cursor)) : Prop :=
  ∀ value behind, outcome = .ok (value, behind) → holds value

variable {holds : Json → Prop}

private theorem yields_error (failure : Failure) : Yields holds (.error failure) := by
  rintro _ _ ⟨⟩

private theorem yields_ok {value : Json} (here : holds value) (behind : Cursor) :
    Yields holds (.ok (value, behind)) := by
  rintro _ _ ⟨⟩
  exact here

theorem Yields.bind
    {α : Type} {first : Except Failure α} {next : α → Except Failure (Json × Cursor)}
    (second : ∀ answer, first = .ok answer → Yields holds (next answer)) :
    Yields holds (first >>= next) := by
  intro value behind success
  obtain ⟨answer, given, success⟩ := bind_eq_ok_iff.1 success
  exact second answer given value behind success

private theorem yields_readWord {value : Json} (here : holds value) (word : List Char)
    (cursor : Cursor) :
    Yields holds (readWord value word cursor) := by
  induction word generalizing cursor with
  | nil => exact yields_ok here cursor
  | cons expected more hypothesis =>
      unfold readWord
      split
      · exact yields_error _
      · dsimp only
        split
        · exact hypothesis _
        · exact yields_error _

section Numbers

variable (number : ∀ value, holds (.number value))
include number

private theorem yields_scaledNumber (negative : Bool) (digits : Nat) (exponent : Int)
    (cursor : Cursor) :
    Yields holds (scaledNumber negative digits exponent cursor) := by
  unfold scaledNumber
  split
  · exact yields_ok (number _) cursor
  · exact yields_error _

private theorem yields_readExponent (negative : Bool) (digits : Nat) (before : Int)
    (cursor : Cursor) :
    Yields holds (readExponent negative digits before cursor) := by
  unfold readExponent
  split
  dsimp only
  split
  · exact yields_error _
  · split
    · exact yields_error _
    · split
      · split
        · exact yields_error _
        · exact yields_scaledNumber number _ _ _ _
      · exact yields_scaledNumber number _ _ _ _

private theorem yields_readFraction (negative : Bool) (digits : Nat) (before : Int)
    (cursor : Cursor) :
    Yields holds (readFraction negative digits before cursor) := by
  unfold readFraction
  dsimp only
  split
  · exact yields_error _
  · split
    · exact yields_readExponent number _ _ _ _
    · exact yields_readExponent number _ _ _ _
    · exact yields_scaledNumber number _ _ _ _

private theorem yields_readNumber (negative : Bool) (cursor : Cursor) :
    Yields holds (readNumber negative cursor) := by
  unfold readNumber
  split
  · exact yields_error _
  · split
    · exact yields_error _
    · split
      · exact yields_error _
      · dsimp only
        split
        · exact yields_readFraction number _ _ _ _
        · exact yields_readExponent number _ _ _ _
        · exact yields_readExponent number _ _ _ _
        · split
          · exact yields_ok (number _) _
          · exact yields_scaledNumber number _ _ _ _

end Numbers

variable {readItem : ValueReader}

private theorem yields_readItems
    (items : ∀ cursor, Yields NamesApart (readItem cursor)) (rounds : Nat) {taken : List Json}
    (apart : ∀ item ∈ taken, item.NamesApart) (cursor : Cursor) :
    Yields NamesApart (readItems readItem taken rounds cursor) := by
  induction rounds generalizing taken cursor with
  | zero => exact yields_error _
  | succ rounds hypothesis =>
      have oneMore (start : Cursor) :
          Yields NamesApart
            (readItem start >>= fun answer =>
              readItems readItem (answer.1 :: taken) rounds answer.2) := by
        refine Yields.bind fun answer read => ?_
        have itemApart := items start answer.1 answer.2 read
        exact hypothesis (List.forall_mem_cons.2 ⟨itemApart, apart⟩) answer.2
      unfold readItems
      dsimp only
      split
      · exact yields_error _
      · refine yields_ok (namesApart_array fun item listed => ?_) _
        exact apart item (List.mem_reverse.1 listed)
      · split
        · exact oneMore _
        · split
          · split
            · exact yields_error _
            · exact yields_error _
            · exact oneMore _
          · exact yields_error _

private theorem yields_readMembers
    (items : ∀ cursor, Yields NamesApart (readItem cursor)) (rounds : Nat) {taken : Members}
    (names : (taken.map Prod.fst).Nodup) (apart : ∀ member ∈ taken, member.2.NamesApart)
    (cursor : Cursor) :
    Yields NamesApart (readMembers readItem taken rounds cursor) := by
  induction rounds generalizing taken cursor with
  | zero => exact yields_error _
  | succ rounds hypothesis =>
      have oneMore (start : Cursor) :
          Yields NamesApart
            (readName (rounds + 1) start >>= fun named =>
              readItem named.2 >>= fun answer =>
                readMembers readItem (taken.put named.1 answer.1) rounds answer.2) := by
        refine Yields.bind fun named _ => Yields.bind fun answer read => ?_
        have valueApart := items named.2 answer.1 answer.2 read
        refine hypothesis (Members.nodup_put names _ _) (fun member listed => ?_) answer.2
        rcases Members.mem_put listed with before | rfl
        · exact apart member before
        · exact valueApart
      unfold readMembers
      dsimp only
      split
      · exact yields_error _
      · exact yields_ok (namesApart_object names apart) _
      · split
        · exact oneMore _
        · split
          · exact oneMore _
          · exact yields_error _

private theorem yields_readValue (rounds depth : Nat) (cursor : Cursor) :
    Yields NamesApart (readValue rounds depth cursor) := by
  have number (value : Number) : (Json.number value).NamesApart := namesApart_scalar rfl
  induction depth using Nat.strongRecOn generalizing cursor with
  | _ depth hypothesis =>
      unfold readValue
      dsimp only
      split
      · exact yields_error _
      · exact yields_readWord (namesApart_scalar rfl) _ _
      · exact yields_readWord (namesApart_scalar rfl) _ _
      · exact yields_readWord (namesApart_scalar rfl) _ _
      · exact yields_readNumber number _ _
      · exact Yields.bind fun text _ => yields_ok (namesApart_scalar rfl) text.2
      · split
        · exact yields_error _
        · next smaller =>
            exact yields_readItems (hypothesis smaller (Nat.lt_succ_self smaller)) rounds
              (by simp) _
      · split
        · exact yields_error _
        · next smaller =>
            exact yields_readMembers (hypothesis smaller (Nat.lt_succ_self smaller)) rounds
              (by simp) (by simp) _
      · split
        · exact yields_readNumber number _ _
        · exact yields_error _

/-- No object of a value that is read from a text has two members of one name. -/
theorem namesApart_of_read
    {text : String} {value : Json} (success : read text = .ok value) : value.NamesApart := by
  have read := mapError_eq_ok_iff.1 success
  obtain ⟨found, foundValue, read⟩ := bind_eq_ok_iff.1 read
  dsimp only at read
  split at read
  · cases read
    exact yields_readValue _ _ _ _ _ foundValue
  · cases read

end Schemata.Json

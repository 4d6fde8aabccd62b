import Schemata.Proofs.Json.Place

/-!
# Where kept parts go

A part that is kept, with everything on the way to it, is found again in what is left of the whole.
Members keep their names there, and items move up by those in front of them that are not kept.
-/
namespace Schemata.Json

open Classical

variable (kept : Place → Json → Prop)

/-- The step in what is left of a value at a place that answers to a step in the value itself. -/
noncomputable def stepKept (place : Place) : Json → Step → Step
  | array items, .item index => .item (keepItems kept (items.take index) 0 place).length
  | _, step => step

variable {kept}

private theorem mem_keepMembers
    {members : Members} {place : Place} {name : String} {value : Json}
    (found : (name, value) ∈ members) (stays : kept (place ++ [.member name]) value) :
    (name, keep kept value (place ++ [.member name])) ∈ keepMembers kept members place := by
  induction members with
  | nil => cases found
  | cons member rest hypothesis =>
      rw [keepMembers]
      rcases List.mem_cons.1 found with rfl | later
      · rw [if_pos stays]
        exact List.mem_cons_self
      · split
        · exact List.mem_cons_of_mem _ (hypothesis later)
        · exact hypothesis later

/-- A kept item stands behind as many items as are kept of those in front of it. -/
theorem getElem?_keepItems
    {items : List Json} {start index : Nat} {place : Place} {item : Json}
    (found : items[index]? = some item) (stays : kept (place ++ [.item (start + index)]) item) :
    (keepItems kept items start place)[(keepItems kept (items.take index) start place).length]? =
      some (keep kept item (place ++ [.item (start + index)])) := by
  induction items generalizing start index with
  | nil => cases found
  | cons first rest hypothesis =>
      cases index with
      | zero =>
          cases found
          rw [Nat.add_zero] at stays ⊢
          rw [List.take_zero, keepItems, keepItems, if_pos stays]
          rfl
      | succ earlier =>
          rw [← Nat.add_assoc, Nat.add_right_comm] at stays ⊢
          have later := hypothesis found stays
          rw [List.take_succ_cons, keepItems, keepItems]
          split
          · exact later
          · exact later

private theorem hasPart_keep
    {value part : Json} {place : Place} {step : Step}
    (found : value.HasPart step part) (stays : kept (place ++ [step]) part) :
    (keep kept value place).HasPart (stepKept kept place value step)
      (keep kept part (place ++ [step])) := by
  cases value with
  | object members =>
      cases step with
      | member name =>
          rw [keep]
          exact mem_keepMembers found stays
      | item index => cases found
  | array items =>
      cases step with
      | member name => cases found
      | item index =>
          rw [← Nat.zero_add index] at stays
          have there := getElem?_keepItems found stays
          rw [Nat.zero_add] at there
          rw [keep]
          exact there
  | _ => cases found

variable (kept)

/-- A value at a place holds a part further down, everything from there down to the part is kept,
and in what is left of the value the part is at another place. -/
inductive Retains : Place → Json → Place → Json → Place → Prop
  | here {place : Place} {value : Json} :
      Retains place value [] value []
  | beneath {place : Place} {value : Json} {step : Step} {next : Json} {rest : Place}
      {part : Json} {there : Place} :
      value.HasPart step next →
      kept (place ++ [step]) next →
      Retains (place ++ [step]) next rest part there →
      Retains place value (step :: rest) part (stepKept kept place value step :: there)

variable {kept}

theorem Retains.holds_keep
    {place below there : Place} {value part : Json}
    (retained : Retains kept place value below part there) :
    (keep kept value place).Holds there (keep kept part (place ++ below)) := by
  induction retained with
  | here => rw [List.append_nil]; rfl
  | beneath found stays _ hypothesis =>
      rw [List.append_cons]
      exact ⟨_, hasPart_keep found stays, hypothesis⟩

end Schemata.Json

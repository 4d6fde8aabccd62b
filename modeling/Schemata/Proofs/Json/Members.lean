import Mathlib.Data.List.Nodup
import Schemata.Json.Basic
import Schemata.Proofs.SortedMap

/-!
# Members put one after another

Putting a member keeps the place of its name if the name is there, and takes a new place at the end
if not. Of several members of one name the last one tells the value and the first one the place.
-/
namespace Schemata.Members

private theorem find?_put (members : Members) (name : String) (value : Json) (other : String) :
    (members.put name value).find? other =
      if other = name then some value else members.find? other := by
  induction members with
  | nil => rw [put, find?, SortedMap.lookup_cons_eq, find?]
  | cons member rest hypothesis =>
      rw [put]
      by_cases here : member.1 = name
      · rw [if_pos here, find?, find?, SortedMap.lookup_cons_eq, SortedMap.lookup_cons_eq, here]
        by_cases same : other = name
        · simp [same]
        · simp [same]
      · rw [find?] at hypothesis
        rw [if_neg here, find?, find?, SortedMap.lookup_cons_eq, SortedMap.lookup_cons_eq,
          hypothesis, find?]
        by_cases same : other = member.1
        · simp [same, here]
        · simp [same]

private theorem names_put (members : Members) (name : String) (value : Json) :
    (members.put name value).map Prod.fst =
      if name ∈ members.map Prod.fst then members.map Prod.fst
      else members.map Prod.fst ++ [name] := by
  induction members with
  | nil => rfl
  | cons member rest hypothesis =>
      rw [put]
      by_cases here : member.1 = name
      · simp [here]
      · have other : name ≠ member.1 := Ne.symm here
        rw [if_neg here, List.map_cons, hypothesis]
        by_cases later : name ∈ rest.map Prod.fst
        · simp [later]
        · simp [later, other]

private theorem put_of_notMem
    {members : Members} {name : String} (new : name ∉ members.map Prod.fst) (value : Json) :
    members.put name value = members ++ [(name, value)] := by
  induction members with
  | nil => rfl
  | cons member rest hypothesis =>
      rw [List.map_cons, List.mem_cons, not_or] at new
      rw [put, if_neg (Ne.symm new.1), hypothesis new.2, List.cons_append]

def putAll (members entries : Members) : Members :=
  entries.foldl (fun members entry => members.put entry.1 entry.2) members

theorem putAll_of_nodup
    {members entries : Members} (apart : ((members ++ entries).map Prod.fst).Nodup) :
    putAll members entries = members ++ entries := by
  induction entries generalizing members with
  | nil => rw [List.append_nil, putAll, List.foldl_nil]
  | cons entry rest hypothesis =>
      rw [List.append_cons] at apart
      have new : entry.1 ∉ members.map Prod.fst := by
        rw [List.map_append, List.map_append, List.nodup_append] at apart
        have before := (List.nodup_append.1 apart.1).2.2
        intro listed
        exact before entry.1 listed entry.1 (by simp) rfl
      rw [List.append_cons, ← hypothesis apart, putAll, List.foldl_cons, put_of_notMem new, putAll]

theorem find?_putAll (members entries : Members) (name : String) :
    (putAll members entries).find? name =
      (entries.reverse.lookup name).or (members.find? name) := by
  induction entries generalizing members with
  | nil => rfl
  | cons entry rest hypothesis =>
      have step : putAll members (entry :: rest) = putAll (members.put entry.1 entry.2) rest := rfl
      rw [step, hypothesis, find?_put, List.reverse_cons, List.lookup_append, Option.or_assoc,
        SortedMap.lookup_cons_eq]
      by_cases same : name = entry.1
      · simp [same]
      · simp [same]

theorem nodup_putAll
    {members : Members} (apart : (members.map Prod.fst).Nodup) (entries : Members) :
    ((putAll members entries).map Prod.fst).Nodup := by
  induction entries generalizing members with
  | nil => exact apart
  | cons entry rest hypothesis =>
      have step : putAll members (entry :: rest) = putAll (members.put entry.1 entry.2) rest := rfl
      rw [step]
      apply hypothesis
      rw [names_put]
      split
      · exact apart
      · next new =>
          rw [List.nodup_append]
          refine ⟨apart, List.nodup_singleton _, ?_⟩
          intro name listed other last same
          rw [same, List.mem_singleton.1 last] at listed
          exact new listed

theorem nodup_put
    {members : Members} (apart : (members.map Prod.fst).Nodup) (name : String) (value : Json) :
    ((members.put name value).map Prod.fst).Nodup :=
  nodup_putAll apart [(name, value)]

theorem mem_put
    {members : Members} {name : String} {value : Json} {member : String × Json}
    (listed : member ∈ members.put name value) :
    member ∈ members ∨ member = (name, value) := by
  induction members with
  | nil => exact Or.inr (List.mem_singleton.1 listed)
  | cons first rest hypothesis =>
      rw [put] at listed
      split at listed
      · rcases List.mem_cons.1 listed with here | later
        · exact Or.inr here
        · exact Or.inl (List.mem_cons_of_mem _ later)
      · rcases List.mem_cons.1 listed with here | later
        · exact Or.inl (here ▸ List.mem_cons_self)
        · exact (hypothesis later).imp_left (List.mem_cons_of_mem _)

end Schemata.Members

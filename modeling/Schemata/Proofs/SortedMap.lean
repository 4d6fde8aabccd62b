import Schemata.SortedMap

/-!
# Lookups in sorted maps

What a lookup finds after a map has changed. The order of the entries decides where a value is
put, but not what is found, so that nothing here speaks of positions.
-/
namespace Schemata.SortedMap

variable {κ α : Type} [DecidableEq κ]

theorem lookup_cons_eq
    (key : κ) (first : κ × α) (rest : List (κ × α)) :
    (first :: rest).lookup key =
      if key = first.1 then some first.2 else rest.lookup key := by
  by_cases same : key = first.1
  · have agrees : (key == first.1) = true := by simpa using same
    rw [List.lookup_cons, agrees, if_pos same]
  · have differs : (key == first.1) = false := by simpa using same
    rw [List.lookup_cons, differs, if_neg same]

private theorem lookup_filter_ne
    (key other : κ) (entries : List (κ × α)) :
    (entries.filter fun entry => entry.1 ≠ key).lookup other =
      if other = key then none else entries.lookup other := by
  induction entries with
  | nil => simp
  | cons first rest hypothesis =>
      by_cases removed : first.1 = key
      · rw [List.filter_cons_of_neg (by simpa using removed), hypothesis, lookup_cons_eq,
          removed]
        by_cases atKey : other = key <;> simp [atKey]
      · rw [List.filter_cons_of_pos (by simpa using removed), lookup_cons_eq, hypothesis,
          lookup_cons_eq]
        by_cases atFirst : other = first.1
        · simp [atFirst, removed]
        · simp [atFirst]

/-- If every key is there once, then it does not matter where its entry stands. -/
theorem lookup_eq_some_iff_mem
    {entries : List (κ × α)} (apart : (entries.map Prod.fst).Nodup) {key : κ} {value : α} :
    entries.lookup key = some value ↔ (key, value) ∈ entries := by
  induction entries with
  | nil => simp
  | cons first rest hypothesis =>
      rw [List.map_cons, List.nodup_cons] at apart
      rw [lookup_cons_eq, List.mem_cons]
      by_cases atFirst : key = first.1
      · have notLater : (key, value) ∉ rest := by
          intro listed
          exact apart.1 (atFirst ▸ List.mem_map_of_mem listed)
        subst atFirst
        simp [Prod.ext_iff, eq_comm, notLater]
      · simp [atFirst, Prod.ext_iff, hypothesis apart.2]

variable [LT κ]

theorem isEmpty_iff_find? {map : SortedMap κ α} :
    map.isEmpty = true ↔ ∀ key, map.find? key = none := by
  unfold isEmpty find?
  cases map.entries with
  | nil => simp
  | cons first rest =>
      constructor
      · intro impossible
        cases impossible
      · intro nothing
        have atFirst := nothing first.1
        rw [lookup_cons_eq, if_pos rfl] at atFirst
        cases atFirst

omit [DecidableEq κ] in
theorem eq_empty_of_isEmpty {map : SortedMap κ α} (empty : map.isEmpty = true) :
    map = ∅ := by
  obtain ⟨entries, sorted⟩ := map
  have nothing : entries = [] := List.isEmpty_iff.1 empty
  subst nothing
  rfl

theorem find?_eq_none_iff {map : SortedMap κ α} {key : κ} :
    map.find? key = none ↔ key ∉ map.keys := by
  unfold find? keys
  rw [List.lookup_eq_none_iff]
  constructor
  · intro noEntry listed
    obtain ⟨entry, found, atKey⟩ := List.mem_map.1 listed
    have differs := noEntry entry found
    simp [atKey] at differs
  · intro unlisted entry found
    have differs : key ≠ entry.1 := by
      intro same
      exact unlisted (List.mem_map.2 ⟨entry, found, same.symm⟩)
    simpa using differs

@[simp]
theorem find?_empty (key : κ) :
    (∅ : SortedMap κ α).find? key = none :=
  rfl

/-- A map without a key is changed at that key only. -/
theorem find?_erase
    (map : SortedMap κ α) (key other : κ) :
    (map.erase key).find? other =
      if other = key then none else map.find? other :=
  lookup_filter_ne key other map.entries

section Insert

variable [DecidableLT κ]

private theorem lookup_insertEntry [Std.Trichotomous (α := κ) (· < ·)]
    (key other : κ) (value : α) (entries : List (κ × α)) :
    (insertEntry key value entries).lookup other =
      if other = key then some value else entries.lookup other := by
  induction entries with
  | nil => exact lookup_cons_eq other (key, value) []
  | cons first rest hypothesis =>
      simp only [insertEntry]
      split
      · exact lookup_cons_eq other (key, value) (first :: rest)
      · next notBelow =>
          split
          · next above =>
              have firstNeKey : first.1 ≠ key := by
                intro same
                exact notBelow (same ▸ above)
              rw [lookup_cons_eq, hypothesis, lookup_cons_eq]
              by_cases atFirst : other = first.1
              · simp [atFirst, firstNeKey]
              · simp [atFirst]
          · next notAbove =>
              have same : key = first.1 :=
                Std.Trichotomous.trichotomous (r := (· < ·)) key first.1 notBelow notAbove
              rw [lookup_cons_eq, lookup_cons_eq]
              by_cases atKey : other = key <;> simp [atKey, ← same]

variable [Trans (α := κ) (· < ·) (· < ·) (· < ·)]
  [Std.Trichotomous (α := κ) (· < ·)]

/-- A map with a value under a key is changed at that key only. -/
theorem find?_insert
    (map : SortedMap κ α) (key other : κ) (value : α) :
    (map.insert key value).find? other =
      if other = key then some value else map.find? other :=
  lookup_insertEntry key other value map.entries

theorem find?_insert_of_ne
    (map : SortedMap κ α) {key other : κ} (value : α)
    (different : other ≠ key) :
    (map.insert key value).find? other = map.find? other := by
  simp [find?_insert, different]

@[simp]
theorem isEmpty_insert (map : SortedMap κ α) (key : κ) (value : α) :
    (map.insert key value).isEmpty = false := by
  rw [Bool.eq_false_iff]
  intro empty
  have nothing := isEmpty_iff_find?.1 empty key
  rw [find?_insert, if_pos rfl] at nothing
  cases nothing

theorem contains_insert
    (map : SortedMap κ α) {key other : κ} (value : α) :
    (map.insert key value).contains other = true ↔
      other = key ∨ map.contains other = true := by
  unfold contains
  rw [find?_insert]
  by_cases same : other = key
  · simp [same]
  · simp [same]

omit [Trans (α := κ) (· < ·) (· < ·) (· < ·)] in
private theorem length_insertEntry {key : κ} (value : α) {entries : List (κ × α)}
    (unlisted : entries.lookup key = none) :
    (insertEntry key value entries).length = entries.length + 1 := by
  induction entries with
  | nil => rfl
  | cons first rest hypothesis =>
      rw [lookup_cons_eq] at unlisted
      split at unlisted
      · cases unlisted
      · next different =>
          simp only [insertEntry]
          split
          · rfl
          · next notBelow =>
              split
              · rw [List.length_cons, hypothesis unlisted, List.length_cons]
              · next notAbove =>
                  have same : key = first.1 :=
                    Std.Trichotomous.trichotomous (r := (· < ·)) key first.1 notBelow notAbove
                  exact absurd same different

/-- A value under a new key makes a map larger by one. -/
theorem size_insert
    {map : SortedMap κ α} {key : κ} (value : α) (unlisted : map.find? key = none) :
    (map.insert key value).size = map.size + 1 :=
  length_insertEntry value unlisted

private theorem find?_insertAll (map : SortedMap κ α) (entries : List (κ × α)) (key : κ) :
    (entries.foldl (fun map entry => map.insert entry.1 entry.2) map).find? key =
      (entries.reverse.lookup key).or (map.find? key) := by
  induction entries generalizing map with
  | nil => rfl
  | cons entry rest hypothesis =>
      rw [List.foldl_cons, hypothesis, find?_insert, List.reverse_cons, List.lookup_append,
        Option.or_assoc, lookup_cons_eq]
      by_cases same : key = entry.1
      · simp [same]
      · simp [same]

/-- Of several values under one key the last one is found. -/
theorem find?_ofList (entries : List (κ × α)) (key : κ) :
    (ofList entries : SortedMap κ α).find? key = entries.reverse.lookup key := by
  rw [ofList, find?_insertAll, find?_empty, Option.or_none]

end Insert

theorem mem_keys_iff {map : SortedMap κ α} {key : κ} :
    key ∈ map.keys ↔ map.contains key = true := by
  unfold contains
  rw [Option.isSome_iff_ne_none, ne_eq, find?_eq_none_iff, Decidable.not_not]

section Keys

variable [Std.Irrefl (α := κ) (· < ·)]

omit [DecidableEq κ] in
theorem nodup_keys (map : SortedMap κ α) : (map.entries.map Prod.fst).Nodup := by
  rw [List.Nodup, List.pairwise_map]
  apply map.sorted.imp
  intro left right below same
  rw [same] at below
  exact Std.Irrefl.irrefl right.1 below

private theorem mem_entries_iff {map : SortedMap κ α} {key : κ} {value : α} :
    (key, value) ∈ map.entries ↔ map.find? key = some value :=
  (lookup_eq_some_iff_mem map.nodup_keys).symm

theorem mem_values_iff {map : SortedMap κ α} {value : α} :
    value ∈ map.values ↔ ∃ key, map.find? key = some value := by
  simp [values, ← mem_entries_iff]

end Keys

section Extensionality

variable [Std.Asymm (α := κ) (· < ·)]

private theorem lookup_eq_none_of_below {key : κ} {entries : List (κ × α)}
    (below : ∀ entry ∈ entries, key < entry.1) :
    entries.lookup key = none := by
  rw [List.lookup_eq_none_iff]
  intro entry listed
  have differs : key ≠ entry.1 := by
    intro same
    have less := below entry listed
    rw [← same] at less
    exact Std.Asymm.asymm key key less less
  simpa using differs

variable [Trans (α := κ) (· < ·) (· < ·) (· < ·)]

/-- A key below the first of a sorted row is not found in the row. -/
theorem lookup_eq_none_of_lt_first {key : κ} {first : κ × α} {rest : List (κ × α)}
    (sorted : (first :: rest).Pairwise fun left right => left.1 < right.1)
    (below : key < first.1) :
    (first :: rest).lookup key = none := by
  apply lookup_eq_none_of_below
  intro entry listed
  rcases List.mem_cons.1 listed with rfl | later
  · exact below
  · exact Trans.trans below ((List.pairwise_cons.1 sorted).1 entry later)

variable [Std.Trichotomous (α := κ) (· < ·)]

private theorem entries_eq_of_lookup_eq {left right : List (κ × α)}
    (leftSorted : left.Pairwise fun first second => first.1 < second.1)
    (rightSorted : right.Pairwise fun first second => first.1 < second.1)
    (same : ∀ key, left.lookup key = right.lookup key) :
    left = right := by
  induction left generalizing right with
  | nil =>
      cases right with
      | nil => rfl
      | cons first rest =>
          have found := same first.1
          rw [lookup_cons_eq, if_pos rfl] at found
          cases found
  | cons first rest hypothesis =>
      cases right with
      | nil =>
          have found := same first.1
          rw [lookup_cons_eq, if_pos rfl] at found
          cases found
      | cons other more =>
          have sameKey : first.1 = other.1 := by
            apply Std.Trichotomous.trichotomous (r := (· < ·))
            · intro less
              have found := same first.1
              rw [lookup_eq_none_of_lt_first rightSorted less, lookup_cons_eq, if_pos rfl] at found
              cases found
            · intro less
              have found := same other.1
              rw [lookup_eq_none_of_lt_first leftSorted less, lookup_cons_eq, if_pos rfl] at found
              cases found
          have sameValue : first.2 = other.2 := by
            have found := same first.1
            rw [lookup_cons_eq, lookup_cons_eq, if_pos rfl, if_pos sameKey] at found
            exact Option.some.inj found
          have sameFirst : first = other := Prod.ext sameKey sameValue
          subst sameFirst
          rw [List.pairwise_cons] at leftSorted rightSorted
          have sameRest : rest = more := by
            apply hypothesis leftSorted.2 rightSorted.2
            intro key
            by_cases atFirst : key = first.1
            · rw [atFirst, lookup_eq_none_of_below leftSorted.1,
                lookup_eq_none_of_below rightSorted.1]
            · have found := same key
              rwa [lookup_cons_eq, lookup_cons_eq, if_neg atFirst, if_neg atFirst] at found
          rw [sameRest]

/-- Two maps in which the same is found under every key are the same map. -/
theorem ext_find? {left right : SortedMap κ α}
    (same : ∀ key, left.find? key = right.find? key) :
    left = right := by
  obtain ⟨leftEntries, leftSorted⟩ := left
  obtain ⟨rightEntries, rightSorted⟩ := right
  congr 1
  exact entries_eq_of_lookup_eq leftSorted rightSorted same

variable [DecidableLT κ]

/-- A map is made of its entries. -/
theorem ofList_entries (map : SortedMap κ α) :
    ofList map.entries = map := by
  apply ext_find?
  intro key
  have reversed : (map.entries.reverse.map Prod.fst).Nodup := by
    rw [List.map_reverse, List.Nodup, List.pairwise_reverse]
    exact map.nodup_keys.imp Ne.symm
  rw [find?_ofList]
  apply Option.ext
  intro value
  rw [lookup_eq_some_iff_mem reversed, List.mem_reverse, mem_entries_iff]

omit [DecidableLT κ] in
theorem erase_comm (map : SortedMap κ α) (key other : κ) :
    (map.erase key).erase other = (map.erase other).erase key := by
  apply ext_find?
  intro sought
  rw [find?_erase, find?_erase, find?_erase, find?_erase]
  by_cases atKey : sought = key <;> simp [atKey]

theorem insert_comm
    (map : SortedMap κ α) {key other : κ} (different : key ≠ other) (value second : α) :
    (map.insert key value).insert other second =
      (map.insert other second).insert key value := by
  apply ext_find?
  intro sought
  rw [find?_insert, find?_insert, find?_insert, find?_insert]
  by_cases atKey : sought = key
  · simp [atKey, different]
  · simp [atKey]

theorem erase_insert_of_ne
    (map : SortedMap κ α) {key other : κ} (different : key ≠ other) (value : α) :
    (map.insert key value).erase other = (map.erase other).insert key value := by
  apply ext_find?
  intro sought
  rw [find?_erase, find?_insert, find?_insert, find?_erase]
  by_cases atKey : sought = key
  · simp [atKey, different]
  · simp [atKey]

/-- Nothing of a value is left once its key is taken away. -/
theorem erase_insert_self (map : SortedMap κ α) (key : κ) (value : α) :
    (map.insert key value).erase key = map.erase key := by
  apply ext_find?
  intro sought
  rw [find?_erase, find?_insert, find?_erase]
  by_cases atKey : sought = key <;> simp [atKey]

end Extensionality

end Schemata.SortedMap

namespace Schemata.TextSet

private theorem contains_insertAll {set : TextSet} {texts : List String} {text : String} :
    (texts.foldl (fun set text => set.insert text ()) set).contains text = true ↔
      set.contains text = true ∨ text ∈ texts := by
  induction texts generalizing set with
  | nil => simp
  | cons first rest hypothesis =>
      rw [List.foldl_cons, hypothesis, SortedMap.contains_insert, List.mem_cons]
      constructor
      · rintro ((same | before) | later)
        · exact Or.inr (Or.inl same)
        · exact Or.inl before
        · exact Or.inr (Or.inr later)
      · rintro (before | same | later)
        · exact Or.inl (Or.inr before)
        · exact Or.inl (Or.inl same)
        · exact Or.inr later

theorem contains_union {left right : TextSet} {text : String} :
    (left.union right).contains text = true ↔
      left.contains text = true ∨ right.contains text = true := by
  rw [union, contains_insertAll, SortedMap.mem_keys_iff]

/-- A set is made of its texts. -/
theorem ofTexts_keys (set : TextSet) :
    ofTexts set.keys = set := by
  have same : set.keys.map (fun text => (text, ())) = set.entries := by
    rw [SortedMap.keys, List.map_map]
    exact List.map_id' set.entries
  rw [ofTexts, same, SortedMap.ofList_entries]

end Schemata.TextSet

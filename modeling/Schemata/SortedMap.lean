/-!
# Sorted maps

Finite maps whose entries are kept in ascending order of their keys. Two maps with the same
entries are equal, and going through the entries meets the keys in order.
-/
namespace Schemata

/-- A finite map: its entries, every key below the keys that follow it. -/
structure SortedMap (κ α : Type) [LT κ] where
  entries : List (κ × α)
  sorted : entries.Pairwise fun left right => left.1 < right.1

namespace SortedMap

variable {κ α : Type} [LT κ] [DecidableLT κ]

instance [DecidableEq κ] [DecidableEq α] : DecidableEq (SortedMap κ α) :=
  fun left right => decidable_of_iff (left.entries = right.entries) (by
    cases left
    cases right
    simp)

def empty : SortedMap κ α := ⟨[], .nil⟩

instance : EmptyCollection (SortedMap κ α) := ⟨empty⟩

instance : Inhabited (SortedMap κ α) := ⟨∅⟩

def isEmpty (map : SortedMap κ α) : Bool :=
  map.entries.isEmpty

def size (map : SortedMap κ α) : Nat :=
  map.entries.length

def keys (map : SortedMap κ α) : List κ :=
  map.entries.map (·.1)

def values (map : SortedMap κ α) : List α :=
  map.entries.map (·.2)

def find? [DecidableEq κ] (map : SortedMap κ α) (key : κ) : Option α :=
  map.entries.lookup key

def contains [DecidableEq κ] (map : SortedMap κ α) (key : κ) : Bool :=
  (map.find? key).isSome

def insertEntry (key : κ) (value : α) : List (κ × α) → List (κ × α)
  | [] => [(key, value)]
  | entry :: rest =>
      if key < entry.1 then (key, value) :: entry :: rest
      else if entry.1 < key then entry :: insertEntry key value rest
      else (key, value) :: rest

private theorem mem_insertEntry {key : κ} {value : α} {entries : List (κ × α)} {entry : κ × α}
    (member : entry ∈ insertEntry key value entries) :
    entry = (key, value) ∨ entry ∈ entries := by
  induction entries with
  | nil => simpa [insertEntry] using member
  | cons first rest hypothesis =>
      simp only [insertEntry] at member
      split at member
      · simpa using member
      · split at member
        · rcases List.mem_cons.1 member with rfl | later
          · simp
          · rcases hypothesis later with found | found <;> simp [found]
        · rcases List.mem_cons.1 member with found | found <;> simp [found]

variable [Trans (α := κ) (· < ·) (· < ·) (· < ·)]
  [Std.Trichotomous (α := κ) (· < ·)]

private theorem pairwise_insertEntry (key : κ) (value : α) {entries : List (κ × α)}
    (sorted : entries.Pairwise fun left right => left.1 < right.1) :
    (insertEntry key value entries).Pairwise fun left right => left.1 < right.1 := by
  induction entries with
  | nil => simp [insertEntry]
  | cons first rest hypothesis =>
      rw [List.pairwise_cons] at sorted
      simp only [insertEntry]
      split
      · next below =>
          refine List.pairwise_cons.2 ⟨fun entry member => ?_, List.pairwise_cons.2 sorted⟩
          rcases List.mem_cons.1 member with rfl | later
          · exact below
          · exact Trans.trans below (sorted.1 entry later)
      · split
        · next above =>
            refine List.pairwise_cons.2
              ⟨fun entry member => ?_, hypothesis sorted.2⟩
            rcases mem_insertEntry member with rfl | later
            · exact above
            · exact sorted.1 entry later
        · next notBelow notAbove =>
            have same : key = first.1 :=
              Std.Trichotomous.trichotomous (r := (· < ·)) key first.1 notBelow notAbove
            exact List.pairwise_cons.2 ⟨same ▸ sorted.1, sorted.2⟩

def insert (map : SortedMap κ α) (key : κ) (value : α) : SortedMap κ α :=
  ⟨insertEntry key value map.entries, pairwise_insertEntry key value map.sorted⟩

def erase [DecidableEq κ] (map : SortedMap κ α) (key : κ) : SortedMap κ α :=
  ⟨map.entries.filter fun entry => entry.1 ≠ key, map.sorted.filter _⟩

/-- The map of some entries; of several values under one key the last one stays. -/
def ofList (entries : List (κ × α)) : SortedMap κ α :=
  entries.foldl (fun map entry => map.insert entry.1 entry.2) ∅

end SortedMap

instance (priority := high) textTrans :
    Trans (α := String) (· < ·) (· < ·) (· < ·) :=
  ⟨String.lt_trans⟩

instance (priority := high) textTrichotomous :
    Std.Trichotomous (α := String) (· < ·) where
  trichotomous _ _ notBelow notAbove :=
    String.le_antisymm (String.not_lt.1 notAbove) (String.not_lt.1 notBelow)

abbrev TextSet := SortedMap String Unit

namespace TextSet

def ofTexts (texts : List String) : TextSet :=
  SortedMap.ofList (texts.map fun text => (text, ()))

def union (left right : TextSet) : TextSet :=
  right.keys.foldl (fun set text => set.insert text ()) left

end TextSet
end Schemata

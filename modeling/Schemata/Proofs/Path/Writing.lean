import Schemata.Path.Json
import Schemata.Proofs.Attempt
import Schemata.Proofs.Path

/-!
# Written paths

A text and the path that is read from it determine each other wherever the text can be read and the
path can be written: splitting a text at its dots and joining the pieces again are inverse to each
other, but for empty pieces on the one side and for dots within segments on the other.
-/
namespace Schemata.Path

section Splitting

variable {α : Type} [DecidableEq α] {separator : α} {items piece : List α}

omit [DecidableEq α] in
/-- What is joined in two parts has a separator between them. -/
theorem intercalate_append
    {front back : List (List α)} (someFront : front ≠ []) (someBack : back ≠ []) :
    [separator].intercalate (front ++ back) =
      [separator].intercalate front ++ separator :: [separator].intercalate back := by
  induction front with
  | nil => exact absurd rfl someFront
  | cons first rest hypothesis =>
      cases rest with
      | nil =>
          rw [List.singleton_append, List.intercalate_cons_of_ne_nil someBack,
            List.intercalate_singleton, List.append_assoc, List.singleton_append]
      | cons second others =>
          have someMore : second :: others ++ back ≠ [] := by simp
          rw [List.cons_append, List.intercalate_cons_of_ne_nil someMore,
            hypothesis (List.cons_ne_nil second others), List.intercalate_cons_cons]
          simp only [List.append_assoc]

private theorem separator_notMem_of_piece (listed : piece ∈ items.splitOn separator) :
    separator ∉ piece := by
  induction items generalizing piece with
  | nil =>
      rw [List.splitOn_nil, List.mem_singleton] at listed
      rw [listed]
      exact List.not_mem_nil
  | cons item rest hypothesis =>
      rw [List.splitOn_cons_eq_if_modifyHead] at listed
      split at listed
      · rcases List.mem_cons.1 listed with rfl | later
        · exact List.not_mem_nil
        · exact hypothesis later
      · next different =>
          obtain ⟨first, others, pieces⟩ :=
            List.exists_cons_of_ne_nil (List.splitOn_ne_nil separator rest)
          rw [pieces] at listed hypothesis
          rcases List.mem_cons.1 listed with rfl | later
          · have notFirst : separator ≠ item := fun same => different (by simp [same])
            exact List.not_mem_cons_of_ne_of_not_mem notFirst (hypothesis List.mem_cons_self)
          · exact hypothesis (List.mem_cons_of_mem first later)

/-- There is an empty piece exactly if nothing is split, or if there is a separator at an end or next
to another one. -/
theorem nil_mem_splitOn_iff :
    [] ∈ items.splitOn separator ↔
      items = [] ∨ [separator] <+: items ∨ [separator] <:+ items ∨
        [separator, separator] <:+: items := by
  constructor
  · intro listed
    obtain ⟨front, back, pieces⟩ := List.append_of_mem listed
    have joined : [separator].intercalate (front ++ [] :: back) = items := by
      rw [← pieces, List.intercalate_splitOn]
    by_cases atStart : front = [] <;> by_cases atEnd : back = []
    · left
      rw [← joined, atStart, atEnd]
      rfl
    · right; left
      rw [← joined, atStart, List.nil_append, List.intercalate_cons_of_ne_nil atEnd]
      exact ⟨_, rfl⟩
    · right; right; left
      rw [← joined, atEnd, intercalate_append atStart (List.cons_ne_nil _ _)]
      exact ⟨_, rfl⟩
    · right; right; right
      rw [← joined, intercalate_append atStart (List.cons_ne_nil _ _),
        List.intercalate_cons_of_ne_nil atEnd]
      exact ⟨[separator].intercalate front, [separator].intercalate back, by simp⟩
  · rintro (rfl | ⟨back, rfl⟩ | ⟨front, rfl⟩ | ⟨front, back, rfl⟩)
    · simp
    · rw [← List.nil_append ([separator] ++ back), List.singleton_append,
        List.splitOn_append_cons_self]
      simp
    · rw [List.splitOn_append_cons_self]
      simp
    · have twice : front ++ [separator, separator] ++ back =
          front ++ separator :: ([] ++ separator :: back) := by simp
      rw [twice, List.splitOn_append_cons_self, List.splitOn_append_cons_self]
      simp

end Splitting

/-- The text is not empty, but begins or ends with a dot or has two dots in a row. -/
def HasGap (text : String) : Prop :=
  text ≠ "" ∧
    (['.'] <+: text.toList ∨ ['.'] <:+ text.toList ∨ ['.', '.'] <:+: text.toList)

private theorem empty_mem_pieces_iff {text : String} (notEmpty : text ≠ "") :
    "" ∈ pieces text ↔ HasGap text := by
  have noCharacters : text.toList ≠ [] := by simpa using notEmpty
  have asLists : "" ∈ pieces text ↔ [] ∈ text.toList.splitOn '.' := by
    simp [pieces, String.ofList_eq_empty_iff]
  rw [asLists, nil_mem_splitOn_iff, HasGap, or_iff_right noCharacters,
    and_iff_right notEmpty]

private theorem render_pieces (text : String) : render ⟨pieces text⟩ = text := by
  apply String.toList_inj.1
  rw [toList_render, pieces, List.map_map]
  simp [Function.comp_def, List.intercalate_splitOn]

/-- A path that is read has segments that are not empty and have no dots, and is written as the text
that it was read from. -/
theorem of_parse {text : String} {path : Path} (read : parse text = .ok path) :
    path.render = text ∧ ∀ segment ∈ path.segments, segment ≠ "" ∧ '.' ∉ segment.toList := by
  unfold parse at read
  split at read
  · next blank =>
      cases read
      rw [blank]
      exact ⟨rfl, fun segment listed => absurd listed List.not_mem_nil⟩
  · split at read
    · cases read
    · next whole =>
        cases read
        refine ⟨render_pieces text, fun segment listed => ⟨?_, ?_⟩⟩
        · rintro rfl
          exact whole listed
        · obtain ⟨piece, found, rfl⟩ := List.mem_map.1 listed
          rw [String.toList_ofList]
          exact separator_notMem_of_piece found

private theorem parse_of_hasGap {text : String} (gap : HasGap text) :
    parse text = .error (.emptySegment text) := by
  rw [parse, if_neg gap.1, if_pos ((empty_mem_pieces_iff gap.1).2 gap)]

private theorem exists_parse_of_not_hasGap {text : String} (noGap : ¬ HasGap text) :
    ∃ path, parse text = .ok path := by
  unfold parse
  split
  · exact ⟨root, rfl⟩
  · next notEmpty =>
      rw [if_neg (mt (empty_mem_pieces_iff notEmpty).1 noGap)]
      exact ⟨_, rfl⟩

private theorem parse_render_iff (path : Path) :
    parse path.render = .ok path ↔
      ∀ segment ∈ path.segments, segment ≠ "" ∧ '.' ∉ segment.toList := by
  constructor
  · intro read
    exact (of_parse read).2
  · intro writable
    exact parse_render (fun listed => (writable "" listed).1 rfl)
      fun segment listed => (writable segment listed).2

private theorem ofJson_toJson_iff_parse_render (path : Path) :
    ofJson path.toJson = .ok path ↔ parse path.render = .ok path :=
  mapError_eq_ok_iff

/-- Exactly the texts with a gap are refused, and every other text is what the path read from it is
written as. Exactly the paths whose segments are not empty and have no dots are read back from what
they are written as, be it a text or a JSON value. Any row of segments is a path, so that nothing is
assumed of the path. -/
theorem text_and_path_determine_each_other (text : String) (path : Path) :
    ((∃ error, parse text = .error error) ↔ HasGap text) ∧
      ((∃ read, parse text = .ok read ∧ read.render = text) ↔ ¬ HasGap text) ∧
      (parse path.render = .ok path ↔
        ∀ segment ∈ path.segments, segment ≠ "" ∧ '.' ∉ segment.toList) ∧
      (ofJson path.toJson = .ok path ↔
        ∀ segment ∈ path.segments, segment ≠ "" ∧ '.' ∉ segment.toList) := by
  have refused : (∃ error, parse text = .error error) ↔ HasGap text := by
    constructor
    · rintro ⟨error, failed⟩
      by_contra noGap
      obtain ⟨read, success⟩ := exists_parse_of_not_hasGap noGap
      rw [success] at failed
      cases failed
    · intro gap
      exact ⟨_, parse_of_hasGap gap⟩
  have accepted : (∃ read, parse text = .ok read ∧ read.render = text) ↔ ¬ HasGap text := by
    constructor
    · rintro ⟨read, success, _⟩ gap
      rw [parse_of_hasGap gap] at success
      cases success
    · intro noGap
      obtain ⟨read, success⟩ := exists_parse_of_not_hasGap noGap
      exact ⟨read, success, (of_parse success).1⟩
  exact ⟨refused, accepted, parse_render_iff path,
    (ofJson_toJson_iff_parse_render path).trans (parse_render_iff path)⟩

end Schemata.Path

import Mathlib.Data.List.Infix
import Schemata.Path

/-!
# Matching and writing of paths

What a pattern fits it also leads to, and without wildcards matching is to be equal or to begin alike.
A path whose segments have no dots and are not empty is read back from its written form.
-/
namespace Schemata.Path

theorem segmentsLeadTo_of_segmentsFit
    {segments pattern : List String} (fit : segmentsFit segments pattern = true) :
    segmentsLeadTo segments pattern = true := by
  induction segments generalizing pattern with
  | nil => rfl
  | cons segment rest hypothesis =>
      cases pattern with
      | nil => cases fit
      | cons first more =>
          rw [segmentsFit, Bool.and_eq_true] at fit
          rw [segmentsLeadTo, Bool.and_eq_true]
          exact ⟨fit.1, hypothesis fit.2⟩

/-- What a pattern fits, it also leads to. -/
theorem leadsTo_of_fits {path pattern : Path} (fit : path.fits pattern = true) :
    path.leadsTo pattern = true :=
  segmentsLeadTo_of_segmentsFit fit

theorem segmentsLeadTo_of_append
    {front back pattern : List String} (lead : segmentsLeadTo (front ++ back) pattern = true) :
    segmentsLeadTo front pattern = true := by
  induction front generalizing pattern with
  | nil => rfl
  | cons segment rest hypothesis =>
      cases pattern with
      | nil => cases lead
      | cons first more =>
          rw [List.cons_append, segmentsLeadTo, Bool.and_eq_true] at lead
          rw [segmentsLeadTo, Bool.and_eq_true]
          exact ⟨lead.1, hypothesis lead.2⟩

theorem leadsTo_of_prefix
    {above path pattern : Path} (reached : above.segments <+: path.segments)
    (leads : path.leadsTo pattern = true) :
    above.leadsTo pattern = true := by
  obtain ⟨back, whole⟩ := reached
  rw [leadsTo, ← whole] at leads
  exact segmentsLeadTo_of_append leads

theorem segmentFits_self (segment : String) : segmentFits segment segment = true := by
  simp [segmentFits]

theorem segmentsFit_self (segments : List String) : segmentsFit segments segments = true := by
  induction segments with
  | nil => rfl
  | cons segment rest hypothesis => rw [segmentsFit, segmentFits_self, hypothesis, Bool.and_true]

private theorem length_eq_of_segmentsFit
    {segments pattern : List String} (fit : segmentsFit segments pattern = true) :
    segments.length = pattern.length := by
  induction segments generalizing pattern with
  | nil =>
      cases pattern with
      | nil => rfl
      | cons first more => cases fit
  | cons segment rest hypothesis =>
      cases pattern with
      | nil => cases fit
      | cons first more =>
          rw [segmentsFit, Bool.and_eq_true] at fit
          rw [List.length_cons, List.length_cons, hypothesis fit.2]

/-- What two rows of segments begin with is compared first. -/
theorem segments_append
    {front first : List String} (sameLength : front.length = first.length)
    (back more : List String) :
    segmentsFit (front ++ back) (first ++ more) =
        (segmentsFit front first && segmentsFit back more) ∧
      segmentsLeadTo (front ++ back) (first ++ more) =
        (segmentsFit front first && segmentsLeadTo back more) ∧
      segmentsLieBeneath (front ++ back) (first ++ more) =
        (segmentsFit front first && segmentsLieBeneath back more) := by
  induction front generalizing first with
  | nil =>
      rw [List.length_eq_zero_iff.1 sameLength.symm]
      exact ⟨rfl, rfl, rfl⟩
  | cons segment rest hypothesis =>
      cases first with
      | nil => cases sameLength
      | cons pattern others =>
          obtain ⟨fit, lead, beneath⟩ := hypothesis (Nat.succ.inj sameLength)
          simp only [List.cons_append, segmentsFit, segmentsLeadTo, segmentsLieBeneath, fit, lead,
            beneath, Bool.and_assoc, and_self]

/-- One segment more than fits a pattern leads to something beneath it. -/
theorem segments_concat_of_segmentsFit
    {segments pattern : List String} (fit : segmentsFit segments pattern = true)
    (last : String) :
    segmentsLeadTo (segments ++ [last]) pattern = false ∧
      segmentsLieBeneath (segments ++ [last]) pattern = true := by
  obtain ⟨_, lead, beneath⟩ := segments_append (length_eq_of_segmentsFit fit) [last] []
  rw [List.append_nil] at lead beneath
  rw [lead, beneath, fit]
  exact ⟨rfl, rfl⟩

theorem child_of_fits {path pattern : Path} (fit : path.fits pattern = true) (segment : String) :
    (path.child segment).leadsTo pattern = false ∧
      (path.child segment).liesBeneath pattern = true :=
  segments_concat_of_segmentsFit fit segment

theorem root_fits_iff {pattern : Path} :
    root.fits pattern = true ↔ pattern.isRoot = true := by
  obtain ⟨segments⟩ := pattern
  cases segments <;> simp [fits, root, segmentsFit, isRoot]

theorem isRoot_append (path other : Path) :
    (path ++ other).isRoot = (path.isRoot && other.isRoot) := by
  obtain ⟨segments⟩ := path
  cases segments <;> rfl

theorem hasWildcard_append (path other : Path) :
    (path ++ other).hasWildcard = (path.hasWildcard || other.hasWildcard) :=
  List.contains_append

/-- An element of an array has the wildcard in its path. -/
theorem hasWildcard_child_wildcard (path : Path) : (path.child wildcard).hasWildcard = true := by
  simp [hasWildcard, child]

section Plain

theorem segmentFits_of_ne_wildcard {segment pattern : String} (plain : segment ≠ wildcard) :
    segmentFits segment pattern = true ↔ segment = pattern ∨ pattern = wildcard := by
  simp [segmentFits, plain]

theorem segmentFits_iff_eq {segment pattern : String} (plain : segment ≠ wildcard)
    (plainPattern : pattern ≠ wildcard) :
    segmentFits segment pattern = true ↔ segment = pattern :=
  (segmentFits_of_ne_wildcard plain).trans (or_iff_left plainPattern)

variable {segments pattern : List String}

theorem segmentsFit_iff_eq (plain : wildcard ∉ segments) (plainPattern : wildcard ∉ pattern) :
    segmentsFit segments pattern = true ↔ segments = pattern := by
  induction segments generalizing pattern with
  | nil => cases pattern <;> simp [segmentsFit]
  | cons segment rest hypothesis =>
      cases pattern with
      | nil => simp [segmentsFit]
      | cons first more =>
          rw [List.mem_cons, not_or] at plain plainPattern
          rw [segmentsFit, Bool.and_eq_true,
            segmentFits_iff_eq (Ne.symm plain.1) (Ne.symm plainPattern.1),
            hypothesis plain.2 plainPattern.2, List.cons.injEq]

theorem segmentsLeadTo_iff_prefix
    (plain : wildcard ∉ segments) (plainPattern : wildcard ∉ pattern) :
    segmentsLeadTo segments pattern = true ↔ segments <+: pattern := by
  induction segments generalizing pattern with
  | nil => simp [segmentsLeadTo]
  | cons segment rest hypothesis =>
      cases pattern with
      | nil => simp [segmentsLeadTo]
      | cons first more =>
          rw [List.mem_cons, not_or] at plain plainPattern
          rw [segmentsLeadTo, Bool.and_eq_true,
            segmentFits_iff_eq (Ne.symm plain.1) (Ne.symm plainPattern.1),
            hypothesis plain.2 plainPattern.2, List.cons_prefix_cons]

theorem segmentsLieBeneath_iff_prefix
    (plain : wildcard ∉ segments) (plainPattern : wildcard ∉ pattern) :
    segmentsLieBeneath segments pattern = true ↔ pattern <+: segments ∧ pattern ≠ segments := by
  induction segments generalizing pattern with
  | nil => simp [segmentsLieBeneath]
  | cons segment rest hypothesis =>
      cases pattern with
      | nil => simp [segmentsLieBeneath]
      | cons first more =>
          rw [List.mem_cons, not_or] at plain plainPattern
          rw [segmentsLieBeneath, Bool.and_eq_true,
            segmentFits_iff_eq (Ne.symm plain.1) (Ne.symm plainPattern.1),
            hypothesis plain.2 plainPattern.2, List.cons_prefix_cons, ne_eq, ne_eq,
            List.cons.injEq]
          tauto

end Plain

private theorem isDigit_of_mem_repr {index : Nat} {c : Char} (listed : c ∈ index.repr.toList) :
    c.isDigit = true := by
  rw [Nat.repr_eq_ofList_toDigits, String.toList_ofList] at listed
  exact Nat.isDigit_of_mem_toDigits (by decide) (by decide) listed

theorem repr_ne_wildcard (index : Nat) : index.repr ≠ wildcard := by
  intro same
  have listed : '*' ∈ index.repr.toList := by
    rw [same]
    exact List.mem_singleton_self _
  cases isDigit_of_mem_repr listed

/-- The decimal form of a number is the index of that number, if the number is small enough. -/
theorem indexOf?_repr_eq (index : Nat) :
    indexOf? index.repr = (some index).filter (· < UInt64.size) := by
  have digits : index.repr.toList = Nat.toDigits 10 index := by
    rw [Nat.repr_eq_ofList_toDigits, String.toList_ofList]
  have unsigned (rest : List Char) : index.repr.toList ≠ '+' :: rest := by
    intro signed
    have listed : '+' ∈ index.repr.toList := by
      rw [signed]
      exact List.mem_cons_self
    cases isDigit_of_mem_repr listed
  unfold indexOf?
  split
  · next rest signed => exact absurd signed (unsigned rest)
  · simp only [digits, Text.readNat?_toDigits]

theorem indexOf?_repr {index : Nat} (small : index < UInt64.size) :
    indexOf? index.repr = some index := by
  simp [indexOf?_repr_eq, small]

theorem lt_size_of_indexOf? {segment : String} {index : Nat} (reads : indexOf? segment = some index) :
    index < UInt64.size := by
  unfold indexOf? at reads
  simpa using (Option.filter_eq_some_iff.1 reads).2

theorem toList_render (path : Path) :
    path.render.toList = ['.'].intercalate (path.segments.map String.toList) := by
  simp [render]

private theorem pieces_render
    {path : Path} (notRoot : path.segments ≠ [])
    (noDots : ∀ segment ∈ path.segments, '.' ∉ segment.toList) :
    pieces path.render = path.segments := by
  have pieceNoDots : ∀ piece ∈ path.segments.map String.toList, '.' ∉ piece := by
    intro piece listed
    obtain ⟨segment, found, rfl⟩ := List.mem_map.1 listed
    exact noDots segment found
  have notEmpty : path.segments.map String.toList ≠ [] := by
    simpa using notRoot
  rw [pieces, toList_render, List.splitOn_intercalate '.' pieceNoDots notEmpty, List.map_map]
  simp [Function.comp_def]

/-- A written path is read back, unless a segment is empty or has a dot. -/
theorem parse_render
    {path : Path} (notEmpty : "" ∉ path.segments)
    (noDots : ∀ segment ∈ path.segments, '.' ∉ segment.toList) :
    parse path.render = .ok path := by
  obtain ⟨segments⟩ := path
  by_cases isRoot : segments = []
  · subst isRoot
    rfl
  have read : pieces (render ⟨segments⟩) = segments := pieces_render isRoot noDots
  have notBlank : render ⟨segments⟩ ≠ "" := by
    intro blank
    rw [blank] at read
    have single : segments = [""] := read.symm
    exact notEmpty (by simp [single])
  rw [parse, if_neg notBlank, read, if_neg notEmpty]

end Schemata.Path

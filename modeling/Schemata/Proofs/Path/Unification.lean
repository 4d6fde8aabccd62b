import Mathlib.Data.List.Forall2
import Schemata.Proofs.Path

/-!
# Matching as unification

A wildcard stands for any one segment, on either side of a match, so that two paths match exactly if
they have an instance in common. The other two relations are matches as well: of an extension of a
path, and of a proper prefix of it.
-/
namespace Schemata.Path

variable {segments pattern : List String}

/-- The path has no wildcards, and is the pattern with a segment in place of each wildcard. -/
def IsInstance (plain pattern : Path) : Prop :=
  wildcard ∉ plain.segments ∧
    List.Forall₂ (fun segment stated => stated = wildcard ∨ segment = stated)
      plain.segments pattern.segments

private theorem segmentsFit_iff_forall₂ {plain : List String} (noWildcard : wildcard ∉ plain) :
    segmentsFit plain pattern = true ↔
      List.Forall₂ (fun segment stated => stated = wildcard ∨ segment = stated) plain pattern := by
  induction plain generalizing pattern with
  | nil => cases pattern <;> simp [segmentsFit]
  | cons segment rest hypothesis =>
      cases pattern with
      | nil => simp [segmentsFit]
      | cons first more =>
          rw [List.mem_cons, not_or] at noWildcard
          rw [segmentsFit, Bool.and_eq_true, segmentFits_of_ne_wildcard (Ne.symm noWildcard.1),
            hypothesis noWildcard.2, List.forall₂_cons, or_comm]

private theorem isInstance_iff {plain pattern : Path} :
    plain.IsInstance pattern ↔ plain.hasWildcard = false ∧ plain.fits pattern = true := by
  have same : plain.hasWildcard = false ↔ wildcard ∉ plain.segments := by
    simp [hasWildcard]
  rw [IsInstance, same]
  exact and_congr_right fun noWildcard => (segmentsFit_iff_forall₂ noWildcard).symm

/-- Of two segments that fit, one that is no wildcard fits both. Two wildcards have any segment in
common. -/
theorem segmentFits_iff_exists_plain {segment pattern : String} :
    segmentFits segment pattern = true ↔
      ∃ plain, plain ≠ wildcard ∧ segmentFits plain segment = true ∧
        segmentFits plain pattern = true := by
  constructor
  · intro fit
    by_cases anything : segment = wildcard
    · by_cases anyPattern : pattern = wildcard
      · exact ⟨"0", by decide, by simp [segmentFits, anything], by simp [segmentFits, anyPattern]⟩
      · exact ⟨pattern, anyPattern, by simp [segmentFits, anything], segmentFits_self pattern⟩
    · exact ⟨segment, anything, segmentFits_self segment, fit⟩
  · rintro ⟨plain, notWildcard, fitsSegment, fitsPattern⟩
    rw [segmentFits_of_ne_wildcard notWildcard] at fitsSegment fitsPattern
    rcases fitsSegment with rfl | rfl
    · exact (segmentFits_of_ne_wildcard notWildcard).2 fitsPattern
    · simp [segmentFits]

private theorem exists_plain_of_segmentsFit (fit : segmentsFit segments pattern = true) :
    ∃ plain, wildcard ∉ plain ∧ segmentsFit plain segments = true ∧
      segmentsFit plain pattern = true := by
  induction segments generalizing pattern with
  | nil =>
      cases pattern with
      | nil => exact ⟨[], List.not_mem_nil, rfl, rfl⟩
      | cons first more => cases fit
  | cons segment rest hypothesis =>
      cases pattern with
      | nil => cases fit
      | cons first more =>
          rw [segmentsFit, Bool.and_eq_true] at fit
          obtain ⟨plain, notWildcard, fitsSegment, fitsFirst⟩ :=
            segmentFits_iff_exists_plain.1 fit.1
          obtain ⟨others, noWildcard, fitOthers, fitMore⟩ := hypothesis fit.2
          refine ⟨plain :: others, ?_, ?_, ?_⟩
          · exact List.not_mem_cons_of_ne_of_not_mem notWildcard.symm noWildcard
          · rw [segmentsFit, fitsSegment, fitOthers, Bool.and_self]
          · rw [segmentsFit, fitsFirst, fitMore, Bool.and_self]

private theorem segmentsFit_of_plain
    {plain : List String} (noWildcard : wildcard ∉ plain)
    (fitsSegments : segmentsFit plain segments = true)
    (fitsPattern : segmentsFit plain pattern = true) :
    segmentsFit segments pattern = true := by
  induction plain generalizing segments pattern with
  | nil =>
      cases segments with
      | nil => exact fitsPattern
      | cons segment rest => cases fitsSegments
  | cons common others hypothesis =>
      cases segments with
      | nil => cases fitsSegments
      | cons segment rest =>
          cases pattern with
          | nil => cases fitsPattern
          | cons first more =>
              rw [segmentsFit, Bool.and_eq_true] at fitsSegments fitsPattern ⊢
              rw [List.mem_cons, not_or] at noWildcard
              have fitsBoth : segmentFits segment first = true :=
                segmentFits_iff_exists_plain.2
                  ⟨common, Ne.symm noWildcard.1, fitsSegments.1, fitsPattern.1⟩
              exact ⟨fitsBoth, hypothesis noWildcard.2 fitsSegments.2 fitsPattern.2⟩

private theorem segmentsLeadTo_iff_exists_append :
    segmentsLeadTo segments pattern = true ↔
      ∃ rest, segmentsFit (segments ++ rest) pattern = true := by
  constructor
  · intro leads
    induction segments generalizing pattern with
    | nil => exact ⟨pattern, segmentsFit_self pattern⟩
    | cons segment others hypothesis =>
        cases pattern with
        | nil => cases leads
        | cons first more =>
            rw [segmentsLeadTo, Bool.and_eq_true] at leads
            obtain ⟨rest, fit⟩ := hypothesis leads.2
            refine ⟨rest, ?_⟩
            rw [List.cons_append, segmentsFit, leads.1, fit, Bool.and_self]
  · rintro ⟨rest, fit⟩
    exact segmentsLeadTo_of_append (segmentsLeadTo_of_segmentsFit fit)

private theorem segmentsLieBeneath_iff_exists_take :
    segmentsLieBeneath segments pattern = true ↔
      ∃ count < segments.length, segmentsFit (segments.take count) pattern = true := by
  induction segments generalizing pattern with
  | nil => simp [segmentsLieBeneath]
  | cons segment rest hypothesis =>
      cases pattern with
      | nil => exact ⟨fun _ => ⟨0, Nat.succ_pos _, rfl⟩, fun _ => rfl⟩
      | cons first more =>
          rw [segmentsLieBeneath, Bool.and_eq_true, hypothesis]
          constructor
          · rintro ⟨fitsFirst, count, shorter, fit⟩
            refine ⟨count + 1, Nat.succ_lt_succ shorter, ?_⟩
            rw [List.take_succ_cons, segmentsFit, fitsFirst, fit, Bool.and_self]
          · rintro ⟨count, shorter, fit⟩
            cases count with
            | zero => cases fit
            | succ count =>
                rw [List.take_succ_cons, segmentsFit, Bool.and_eq_true] at fit
                exact ⟨fit.1, count, Nat.lt_of_succ_lt_succ shorter, fit.2⟩

private theorem segmentsLieBeneath_of_segmentsLeadTo
    (leads : segmentsLeadTo segments pattern = true) :
    segmentsLieBeneath segments pattern = false := by
  induction segments generalizing pattern with
  | nil => rfl
  | cons segment rest hypothesis =>
      cases pattern with
      | nil => cases leads
      | cons first more =>
          rw [segmentsLeadTo, Bool.and_eq_true] at leads
          rw [segmentsLieBeneath, hypothesis leads.2, Bool.and_false]

/-- Rows that are neither above nor beneath each other differ in a segment that both have, and still
do so when they are continued. -/
theorem segments_apart_append
    (notLeading : segmentsLeadTo segments pattern = false)
    (notBeneath : segmentsLieBeneath segments pattern = false) (rest more : List String) :
    segmentsLeadTo (segments ++ rest) (pattern ++ more) = false ∧
      segmentsLieBeneath (segments ++ rest) (pattern ++ more) = false := by
  induction segments generalizing pattern with
  | nil => cases notLeading
  | cons segment others hypothesis =>
      cases pattern with
      | nil => cases notBeneath
      | cons first further =>
          rw [segmentsLeadTo] at notLeading
          rw [segmentsLieBeneath] at notBeneath
          rw [List.cons_append, List.cons_append, segmentsLeadTo, segmentsLieBeneath]
          cases fits : segmentFits segment first with
          | false => exact ⟨rfl, rfl⟩
          | true =>
              rw [fits, Bool.true_and] at notLeading notBeneath
              exact hypothesis notLeading notBeneath

private theorem segmentsFit_eq_false_of_not_leading
    (notLeading : segmentsLeadTo segments pattern = false) :
    segmentsFit segments pattern = false := by
  rw [← Bool.not_eq_true] at notLeading ⊢
  exact mt segmentsLeadTo_of_segmentsFit notLeading

/-- A path without wildcards matches a pattern exactly if it is an instance of the pattern, and two
paths match exactly if a path without wildcards matches both. A path leads to a pattern exactly if an
extension of it matches, and lies beneath the pattern exactly if a proper prefix of it does; it never
does both. If it does neither, then no extension of it has to do with any extension of the pattern. -/
theorem matching_is_unification (path pattern : Path) :
    (path.IsInstance pattern ↔ path.hasWildcard = false ∧ path.fits pattern = true) ∧
      (path.fits pattern = true ↔
        ∃ plain : Path, plain.hasWildcard = false ∧ plain.fits path = true ∧
          plain.fits pattern = true) ∧
      (path.leadsTo pattern = true ↔ ∃ rest : Path, (path ++ rest).fits pattern = true) ∧
      (path.liesBeneath pattern = true ↔
        ∃ count < path.length, (path.take count).fits pattern = true) ∧
      ¬ (path.leadsTo pattern = true ∧ path.liesBeneath pattern = true) ∧
      (path.leadsTo pattern = false ∧ path.liesBeneath pattern = false ↔
        ∀ rest more : Path,
          (path ++ rest).fits (pattern ++ more) = false ∧
            (path ++ rest).leadsTo (pattern ++ more) = false ∧
            (path ++ rest).liesBeneath (pattern ++ more) = false) := by
  refine ⟨isInstance_iff, ?_, ?_, segmentsLieBeneath_iff_exists_take, ?_, ?_⟩
  · constructor
    · intro fit
      obtain ⟨plain, noWildcard, fitsPath, fitsPattern⟩ := exists_plain_of_segmentsFit fit
      exact ⟨⟨plain⟩, by simpa [hasWildcard] using noWildcard, fitsPath, fitsPattern⟩
    · rintro ⟨⟨plain⟩, noWildcard, fitsPath, fitsPattern⟩
      exact segmentsFit_of_plain (by simpa [hasWildcard] using noWildcard) fitsPath fitsPattern
  · constructor
    · intro leads
      obtain ⟨rest, fit⟩ := segmentsLeadTo_iff_exists_append.1 leads
      exact ⟨⟨rest⟩, fit⟩
    · rintro ⟨⟨rest⟩, fit⟩
      exact segmentsLeadTo_iff_exists_append.2 ⟨rest, fit⟩
  · rintro ⟨leads, beneath⟩
    rw [liesBeneath, segmentsLieBeneath_of_segmentsLeadTo leads] at beneath
    cases beneath
  · constructor
    · rintro ⟨notLeading, notBeneath⟩ ⟨rest⟩ ⟨more⟩
      obtain ⟨stillNotLeading, stillNotBeneath⟩ :=
        segments_apart_append notLeading notBeneath rest more
      exact ⟨segmentsFit_eq_false_of_not_leading stillNotLeading, stillNotLeading,
        stillNotBeneath⟩
    · intro apart
      obtain ⟨_, notLeading, notBeneath⟩ := apart root root
      have same (other : Path) : other ++ root = other :=
        congrArg Path.mk (List.append_nil other.segments)
      rw [same, same] at notLeading notBeneath
      exact ⟨notLeading, notBeneath⟩

end Schemata.Path

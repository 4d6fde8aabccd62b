import Schemata.Proofs.FieldTree.Patterns
import Schemata.Proofs.Projector.LastExclusion

/-!
# Indexes in rules

A rule may name an element of an array by any text that is read as its index, with a plus sign or with
zeros in front. It compiles as if it named the index in decimal digits. But paths of documents have
their indexes in decimal digits, and rules compare texts: a rule with another form decides nothing
about the element or beneath it.
-/
namespace Schemata

namespace FieldTree

variable {tree : FieldTree} {path above : Path} {id : NodeId}

def LeadsToArray (tree : FieldTree) (path : Path) : Prop :=
  ∃ array element, tree.resolve? path = some array ∧ tree.element? array = some element

/-- A path as documents have it: no segment is the wildcard, and where the path stands at an array
the next segment is an index in decimal digits. -/
structure DocumentPath (tree : FieldTree) (path : Path) : Prop where
  plain : Path.wildcard ∉ path.segments
  indexed :
    ∀ above segment, (Path.child above segment).segments <+: path.segments →
      tree.LeadsToArray above → ∃ index, segment = Nat.repr index

private theorem documentPath_root (tree : FieldTree) : tree.DocumentPath .root where
  plain := List.not_mem_nil
  indexed above segment reached := by
    have nothing := List.prefix_nil.1 reached
    simp [Path.child] at nothing

namespace DocumentPath

theorem of_prefix
    (documentPath : tree.DocumentPath path) (reached : above.segments <+: path.segments) :
    tree.DocumentPath above where
  plain listed := documentPath.plain (reached.subset listed)
  indexed upTo segment earlier := documentPath.indexed upTo segment (earlier.trans reached)

theorem step
    {segment : String} (documentPath : tree.DocumentPath path) (plain : segment ≠ Path.wildcard)
    (indexed : tree.LeadsToArray path → ∃ index, segment = Nat.repr index) :
    tree.DocumentPath (path.child segment) where
  plain listed := by
    rcases List.mem_append.1 listed with earlier | last
    · exact documentPath.plain earlier
    · exact plain (List.mem_singleton.1 last).symm
  indexed above next reached array := by
    rcases List.prefix_concat_iff.1 reached with whole | earlier
    · obtain ⟨sameAbove, sameLast⟩ := List.append_inj' whole rfl
      obtain rfl : above = path := congrArg Path.mk sameAbove
      obtain rfl : next = segment := List.singleton_inj.1 sameLast
      exact indexed array
    · exact documentPath.indexed above next earlier array

theorem item (documentPath : tree.DocumentPath path) (index : Nat) :
    tree.DocumentPath (path.child index.repr) :=
  documentPath.step (Path.repr_ne_wildcard index) fun _ => ⟨index, rfl⟩

theorem member
    {name : String} (documentPath : tree.DocumentPath path) (plain : name ≠ Path.wildcard)
    (resolved : tree.resolve? path = some id) (object : tree.hasObject id = true) :
    tree.DocumentPath (path.child name) := by
  refine documentPath.step plain ?_
  rintro ⟨array, element, led, isElement⟩
  rw [resolved] at led
  cases led
  rw [not_element?_of_hasObject object] at isElement
  cases isElement

end DocumentPath

end FieldTree

namespace Projector

open FieldTree

variable {tree : FieldTree} {path target : Path} {included recursive : Bool}
  {front back : List String} {segment other : String} {index : Nat}

/-- Whatever selects the element of an array may stand for it in a pattern. -/
theorem nodesMatching_eq_of_selects
    (array : tree.LeadsToArray ⟨front⟩) (selects : Path.selectsElement segment = true)
    (selectsToo : Path.selectsElement other = true) (contextPath : Path) :
    tree.nodesMatching root contextPath ⟨front ++ other :: back⟩ =
      tree.nodesMatching root contextPath ⟨front ++ segment :: back⟩ := by
  obtain ⟨id, element, resolved, isElement⟩ := array
  have passed {last : String} (selects : Path.selectsElement last = true) :
      tree.stepsAll [root] (front ++ last :: back) = tree.stepsAll [element] back := by
    have led : tree.step? id last = some element :=
      step?_eq_some_iff.2 (Or.inr ⟨isElement, selects⟩)
    rw [stepsAll_append, stepsAll_of_follow? resolved, stepsAll_cons, List.flatMap_singleton,
      stepAll_of_step? led]
  simp only [nodesMatching, passed selects, passed selectsToo]

/-- A field rule compiles if another one does that names the same nodes, and is recursive then if that
one is. -/
theorem compile_field_of_same_nodes
    {other contextPath : Path} {context : NodeId} {compiled : Projector}
    (success :
      compile tree (.field target included recursive) contextPath context = .ok compiled)
    (notRoot : other.isRoot = false)
    (same :
      tree.nodesMatching context contextPath other =
        tree.nodesMatching context contextPath target) :
    ∃ deep,
      compiled = .field (contextPath ++ target) included deep ∧
        compile tree (.field other included recursive) contextPath context =
          .ok (.field (contextPath ++ other) included deep) := by
  obtain ⟨ids, named, rfl⟩ := exists_targets_of_compile_field success
  obtain ⟨_, listed, some⟩ := targets_eq_ok_iff.1 named
  have namedToo : targets tree other contextPath context = .ok ids :=
    targets_eq_ok_iff.2 ⟨notRoot, same.trans listed, some⟩
  refine ⟨_, rfl, ?_⟩
  rw [compile, compileField, namedToo]
  rfl

private theorem selectsElement_of_reads (reads : Path.indexOf? segment = some index) :
    Path.selectsElement segment = true := by
  simp [Path.selectsElement, reads]

private theorem compile_decimal
    {compiled : Projector}
    (success :
      compile tree (.field ⟨front ++ segment :: back⟩ included recursive) .root root =
        .ok compiled)
    (array : tree.LeadsToArray ⟨front⟩) (reads : Path.indexOf? segment = some index) :
    ∃ deep,
      compiled = .field ⟨front ++ segment :: back⟩ included deep ∧
        compile tree (.field ⟨front ++ index.repr :: back⟩ included recursive) .root root =
          .ok (.field ⟨front ++ index.repr :: back⟩ included deep) := by
  have readsDecimal := Path.indexOf?_repr (Path.lt_size_of_indexOf? reads)
  have notRoot : (Path.mk (front ++ index.repr :: back)).isRoot = false := by
    simp [Path.isRoot]
  exact compile_field_of_same_nodes success notRoot
    (nodesMatching_eq_of_selects array (selectsElement_of_reads reads)
      (selectsElement_of_reads readsDecimal) .root)

private theorem decision_field_of_plain
    (plain : Path.wildcard ∉ path.segments) (plainTarget : Path.wildcard ∉ target.segments)
    (included recursive : Bool) :
    (project (.field target included recursive) path).decision =
      if path.segments <+: target.segments ∧ (included = true ∨ path = target) ∨
          recursive = true ∧ target.segments <+: path.segments ∧ target ≠ path then
        .ofFlag included
      else .undecided := by
  obtain ⟨segments⟩ := path
  obtain ⟨pattern⟩ := target
  have leads := Path.segmentsLeadTo_iff_prefix plain plainTarget
  have fits := Path.segmentsFit_iff_eq plain plainTarget
  have beneath := Path.segmentsLieBeneath_iff_prefix plain plainTarget
  simp only [project, projectField, Path.leadsTo, Path.fits, Path.liesBeneath, Bool.or_eq_true,
    Bool.and_eq_true, leads, fits, beneath, Path.mk.injEq, ne_eq]
  by_cases above : segments <+: pattern
  · have notBeneath : ¬ (pattern <+: segments ∧ ¬ pattern = segments) := by
      rintro ⟨reached, different⟩
      exact different (reached.eq_of_length_le above.length_le)
    simp only [above, notBeneath, if_true, true_and, and_false, or_false]
    split <;> rfl
  · simp only [above, if_false, false_and, false_or]
    split <;> rfl

/-- A segment does not matter to paths that end before it. -/
theorem decision_eq_of_short
    (plain : Path.wildcard ∉ path.segments)
    (plainTarget : Path.wildcard ∉ front ++ segment :: back)
    (plainOther : Path.wildcard ∉ front ++ other :: back)
    (short : path.length ≤ front.length) (included recursive : Bool) :
    (project (.field ⟨front ++ segment :: back⟩ included recursive) path).decision =
      (project (.field ⟨front ++ other :: back⟩ included recursive) path).decision := by
  have leads_iff (last : String) :
      path.segments <+: front ++ last :: back ↔ path.segments <+: front := by
    constructor
    · intro reached
      exact List.prefix_of_prefix_length_le reached (List.prefix_append _ _) short
    · intro reached
      exact reached.trans (List.prefix_append _ _)
  have notLonger (last : String) : ¬ front ++ last :: back <+: path.segments := by
    intro reached
    have longer := reached.length_le
    simp only [Path.length, List.length_append, List.length_cons] at longer short
    omega
  have differs (last : String) : path ≠ ⟨front ++ last :: back⟩ := by
    rintro rfl
    exact notLonger last List.prefix_rfl
  rw [decision_field_of_plain plain plainTarget, decision_field_of_plain plain plainOther]
  simp only [leads_iff, notLonger, differs, false_and]

/-- A longer path about which a rule decides begins with the rule's segments up to there, and with all
of them if the rule excludes. -/
theorem concat_prefix_of_decided
    (plain : Path.wildcard ∉ path.segments)
    (plainTarget : Path.wildcard ∉ front ++ segment :: back)
    (long : front.length < path.length)
    (decided :
      (project (.field ⟨front ++ segment :: back⟩ included recursive) path).decision ≠
        .undecided) :
    (front ++ [segment]) <+: path.segments ∧
      (included = false → front ++ segment :: back <+: path.segments) := by
  have upTo : (front ++ [segment]) <+: front ++ segment :: back := by
    rw [List.append_cons front segment back]
    exact List.prefix_append _ _
  rw [decision_field_of_plain plain plainTarget] at decided
  split at decided
  · next decides =>
      rcases decides with ⟨reached, decides⟩ | ⟨_, reached, _⟩
      · constructor
        · refine List.prefix_of_prefix_length_le upTo reached ?_
          rw [List.length_append]
          exact long
        · intro excludes
          rcases decides with includes | rfl
          · rw [excludes] at includes
            cases includes
          · exact List.prefix_rfl
      · exact ⟨upTo.trans reached, fun _ => reached⟩
  · exact (decided rfl).elim

/-- Behind an array the path of a document has decimal digits, and no other form of an index. -/
theorem decision_eq_undecided_of_not_decimal
    (plain : Path.wildcard ∉ front ++ segment :: back) (array : tree.LeadsToArray ⟨front⟩)
    (reads : Path.indexOf? segment = some index) (notDecimal : segment ≠ index.repr)
    (documentPath : tree.DocumentPath path) (long : front.length < path.length) :
    (project (.field ⟨front ++ segment :: back⟩ included recursive) path).decision =
      .undecided := by
  by_contra decided
  obtain ⟨reached, _⟩ := concat_prefix_of_decided documentPath.plain plain long decided
  obtain ⟨written, rfl⟩ := documentPath.indexed ⟨front⟩ segment reached array
  rw [Path.indexOf?_repr_eq] at reads
  have same : written = index := Option.some.inj (Option.filter_eq_some_iff.1 reads).1
  exact notDecimal (congrArg Nat.repr same)

/-- A rule decides something beyond one of its indexes if the paths of documents get there: for an
inclusion up to the index, and for an exclusion up to the end. -/
theorem exists_decided_beyond_iff
    (plain : Path.wildcard ∉ front ++ index.repr :: back) (included recursive : Bool) :
    (∃ path, tree.DocumentPath path ∧ front.length < path.length ∧
        (project (.field ⟨front ++ index.repr :: back⟩ included recursive) path).decision ≠
          .undecided) ↔
      tree.DocumentPath (if included then ⟨front⟩ else ⟨front ++ index.repr :: back⟩) := by
  constructor
  · rintro ⟨path, documentPath, long, decided⟩
    obtain ⟨reached, whole⟩ := concat_prefix_of_decided documentPath.plain plain long decided
    cases included with
    | true => exact documentPath.of_prefix ((List.prefix_append _ _).trans reached)
    | false => exact documentPath.of_prefix (whole rfl)
  · intro documentPath
    cases included with
    | true =>
        have beyond : tree.DocumentPath ⟨front ++ [index.repr]⟩ := documentPath.item index
        refine ⟨_, beyond, by simp [Path.length], ?_⟩
        rw [decision_field_of_plain beyond.plain plain, if_pos (Or.inl ⟨by simp, Or.inl rfl⟩)]
        exact Decision.noConfusion
    | false =>
        rw [if_neg Bool.false_ne_true] at documentPath
        refine ⟨_, documentPath, by simp [Path.length], ?_⟩
        rw [decision_field_of_plain plain plain, if_pos (Or.inl ⟨List.prefix_rfl, Or.inr rfl⟩)]
        exact Decision.noConfusion

/-- A field rule that names an element by a text that is read as an index compiles to the same as the
rule with the index in decimal digits, but for that segment. About paths of documents that end at the
array or above it both rules decide the same. About the elements and what lies beneath them the rule
decides nothing at all if the text is not the decimal one. So it decides as the other rule does only if
the text is decimal, or if that one decides nothing there either: an inclusion because a segment in
front, and an exclusion because any other segment is never met in the path of a document. -/
theorem index_segment_decides_iff
    {compiled : Projector}
    (success :
      compile tree (.field ⟨front ++ segment :: back⟩ included recursive) .root root =
        .ok compiled)
    (plain : Path.wildcard ∉ front ++ segment :: back) (array : tree.LeadsToArray ⟨front⟩)
    (reads : Path.indexOf? segment = some index) :
    ∃ decimal,
      compile tree (.field ⟨front ++ index.repr :: back⟩ included recursive) .root root =
          .ok decimal ∧
        (∀ path, tree.DocumentPath path → path.length ≤ front.length →
          (project compiled path).decision = (project decimal path).decision) ∧
        (segment ≠ index.repr →
          ∀ path, tree.DocumentPath path → front.length < path.length →
            (project compiled path).decision = .undecided) ∧
        ((∀ path, tree.DocumentPath path →
            (project compiled path).decision = (project decimal path).decision) ↔
          segment = index.repr ∨
            ¬ tree.DocumentPath
              (if included then ⟨front⟩ else ⟨front ++ index.repr :: back⟩)) := by
  obtain ⟨deep, rfl, decimalCompiled⟩ := compile_decimal success array reads
  have plainDecimal : Path.wildcard ∉ front ++ index.repr :: back := by
    simp only [List.mem_append, List.mem_cons, not_or] at plain ⊢
    exact ⟨plain.1, (Path.repr_ne_wildcard index).symm, plain.2.2⟩
  have above :
      ∀ path, tree.DocumentPath path → path.length ≤ front.length →
        (project (.field ⟨front ++ segment :: back⟩ included deep) path).decision =
          (project (.field ⟨front ++ index.repr :: back⟩ included deep) path).decision :=
    fun path documentPath short =>
      decision_eq_of_short documentPath.plain plain plainDecimal short included deep
  have beyond :
      segment ≠ index.repr →
        ∀ path, tree.DocumentPath path → front.length < path.length →
          (project (.field ⟨front ++ segment :: back⟩ included deep) path).decision =
            .undecided :=
    fun notDecimal path documentPath long =>
      decision_eq_undecided_of_not_decimal plain array reads notDecimal documentPath long
  refine ⟨_, decimalCompiled, above, beyond, ?_⟩
  rw [← exists_decided_beyond_iff plainDecimal included deep]
  constructor
  · intro same
    by_contra differs
    rw [not_or, not_not] at differs
    obtain ⟨notDecimal, path, documentPath, long, decided⟩ := differs
    rw [← same path documentPath] at decided
    exact decided (beyond notDecimal path documentPath long)
  · rintro agrees path documentPath
    rcases Nat.lt_or_ge front.length path.length with long | short
    · by_cases isDecimal : segment = index.repr
      · rw [isDecimal]
      · have nothing := agrees.resolve_left isDecimal
        rw [beyond isDecimal path documentPath long]
        by_contra decided
        exact nothing ⟨path, documentPath, long, Ne.symm decided⟩
    · exact above path documentPath short

def numberOfLine (form : String) : Path :=
  ⟨["lines"] ++ form :: ["sku"]⟩

private theorem linesTree_leadsToArray : linesTree.LeadsToArray ⟨["lines"]⟩ :=
  ⟨1, 2, by rfl, by rfl⟩

private theorem documentPath_numberOfLine
    (index : Nat) (resolved : linesTree.resolve? ⟨["lines", index.repr]⟩ = some 2) :
    linesTree.DocumentPath (numberOfLine index.repr) := by
  have named : "lines" ≠ Path.wildcard := by
    decide
  have lines := (documentPath_root linesTree).member named rfl (by rfl)
  exact (lines.item index).member (by decide) resolved (by rfl)

/-- An exclusion that names the first line with a sign decides nothing about it, though the tree reads
the sign. -/
theorem signed_index_excludes_nothing :
    compile linesTree (.field (numberOfLine "+0") false true) .root root =
        .ok (.field (numberOfLine "+0") false true) ∧
      Path.wildcard ∉ (numberOfLine "+0").segments ∧
      linesTree.LeadsToArray ⟨["lines"]⟩ ∧
      Path.indexOf? "+0" = some 0 ∧
      (∀ path, linesTree.DocumentPath path → 1 < path.length →
        (project (.field (numberOfLine "+0") false true) path).decision = .undecided) ∧
      ∃ decimal,
        compile linesTree (.field (numberOfLine "0") false true) .root root = .ok decimal ∧
          ¬ ∀ path, linesTree.DocumentPath path →
            (project (.field (numberOfLine "+0") false true) path).decision =
              (project decimal path).decision := by
  have compiled :
      compile linesTree (.field (numberOfLine "+0") false true) .root root =
        .ok (.field (numberOfLine "+0") false true) := by
    rfl
  have plain : Path.wildcard ∉ (numberOfLine "+0").segments := by
    decide
  have reads : Path.indexOf? "+0" = some 0 := by
    decide
  obtain ⟨decimal, decimalCompiled, _, beyond, same_iff⟩ :=
    index_segment_decides_iff compiled plain linesTree_leadsToArray reads
  refine ⟨compiled, plain, linesTree_leadsToArray, reads, beyond (by decide), decimal,
    decimalCompiled, fun same => ?_⟩
  rcases same_iff.1 same with isDecimal | notReached
  · exact absurd isDecimal (by decide)
  · exact notReached (documentPath_numberOfLine 0 (by rfl))

/-- The rule with a zero in front compiles like the one without, but does not show the number of the
second line. -/
theorem padded_index_misses_line :
    compile linesTree (.field (numberOfLine "01") true false) .root root =
        .ok (.field (numberOfLine "01") true false) ∧
      compile linesTree (.field (numberOfLine "1") true false) .root root =
        .ok (.field (numberOfLine "1") true false) ∧
      linesTree.LeadsToArray ⟨["lines"]⟩ ∧
      Path.indexOf? "01" = some 1 ∧
      linesTree.DocumentPath (numberOfLine "1") ∧
      (project (.field (numberOfLine "01") true false) (numberOfLine "1")).decision =
        .undecided ∧
      (project (.field (numberOfLine "1") true false) (numberOfLine "1")).decision = .included ∧
      projectDocument (.field (numberOfLine "01") true false) linesTree (linesWith ["A", "B"]) =
        .ok (linesWith []) ∧
      projectDocument (.field (numberOfLine "1") true false) linesTree (linesWith ["A", "B"]) =
        .ok (linesWith ["B"]) :=
  ⟨by rfl, by rfl, linesTree_leadsToArray, by decide, documentPath_numberOfLine 1 (by rfl),
    by decide, by decide, by rfl, by rfl⟩

end Projector
end Schemata

import Schemata.Projection.Reader
import Schemata.Proofs.Path

/-!
# Written projections

A projection is read back from its JSON form. The three shapes of projections are tried in order and
have no tag, so that besides each part being read back no written form may be taken for one of a
shape that is tried earlier: a written list is the only array, and of the written rules only a range
has bounds.
-/
namespace Schemata.Projection

mutual

/-- The paths of all rules of a projection, those inside of ranges among them. -/
def paths : Projection → List Path
  | .field target _ _ => [target]
  | .range target _ _ _ none => [target]
  | .range target _ _ _ (some project) => target :: paths project
  | .list rules => pathsAll rules

def pathsAll : List Projection → List Path
  | [] => []
  | rule :: rest => paths rule ++ pathsAll rest

end

/-- The path is read back from its written form: its segments are not empty and have no dots. -/
def IsWritable (path : Path) : Prop :=
  ∀ segment ∈ path.segments, segment ≠ "" ∧ '.' ∉ segment.toList

variable {target : Path} {included : Bool} {members : RuleMembers}

private theorem toUInt64?_ofUInt64 (value : UInt64) :
    (Number.ofUInt64 value).toUInt64? = some value := by
  simp [Number.ofUInt64, Number.toUInt64?]

private theorem boundOf?_number (value : UInt64) :
    boundOf? (.number (.ofUInt64 value)) = some value :=
  toUInt64?_ofUInt64 value

/-- The members that a rule of either kind is written with, as they are read. -/
def commonReadings (target : Path) (included : Bool) : RuleMembers :=
  [("field", ⟨target.toJson, none⟩), ("include", ⟨.bool included, none⟩)]

private theorem readMembers_append (front back : Members) :
    readMembers (front ++ back) = readMembers front ++ readMembers back := by
  induction front with
  | nil => rfl
  | cons member rest hypothesis =>
      obtain ⟨name, value⟩ := member
      rw [List.cons_append, readMembers, readMembers, hypothesis]
      rfl

private theorem readMembers_commonMembers (target : Path) (included : Bool) :
    readMembers (commonMembers target included) = commonReadings target included := by
  simp [commonMembers, readMembers, commonReadings, Path.toJson, ofJson?]

private theorem pathOf?_commonReadings (writable : IsWritable target) (others : RuleMembers) :
    pathOf? (commonReadings target included ++ others) = some target := by
  have notEmpty : "" ∉ target.segments := fun listed => (writable "" listed).1 rfl
  have noDots : ∀ segment ∈ target.segments, '.' ∉ segment.toList :=
    fun segment listed => (writable segment listed).2
  have parsed := Path.parse_render notEmpty noDots
  have read : Path.ofJson target.toJson = .ok target := by
    show (Path.parse target.render).mapError _ = _
    rw [parsed]
    rfl
  show (Path.ofJson target.toJson).toOption = some target
  rw [read]
  rfl

private theorem flagOf?_include (others : RuleMembers) (default : Bool) :
    flagOf? (commonReadings target included ++ others) "include" default = some included :=
  rfl

/-- Without bounds a rule is no range. -/
theorem rangeRule?_of_no_bounds (unbounded : members.lookup "range" = none) :
    rangeRule? members = none := by
  have noBounds : boundsOf? members = none := by
    rw [boundsOf?, unbounded]
    rfl
  rw [rangeRule?, noBounds]
  cases members.all fun member => rangeMembers.contains member.1 <;> rfl

private theorem fieldRule?_written (writable : IsWritable target) (recursive : Bool) :
    fieldRule? (commonReadings target included ++
        if recursive then [("recursive", ⟨.bool true, none⟩)] else []) =
      some (.field target included recursive) := by
  rw [fieldRule?, pathOf?_commonReadings writable, flagOf?_include]
  cases recursive <;> rfl

private theorem ofMembers?_field (writable : IsWritable target) (recursive : Bool) :
    ofMembers? (commonReadings target included ++
        if recursive then [("recursive", ⟨.bool true, none⟩)] else []) =
      some (.field target included recursive) := by
  have noRange :
      rangeRule? (commonReadings target included ++
        if recursive then [("recursive", ⟨.bool true, none⟩)] else []) = none := by
    apply rangeRule?_of_no_bounds
    cases recursive <;> rfl
  rw [ofMembers?, noRange, fieldRule?_written writable]
  rfl

def boundsReading (first last : UInt64) : String × Reading :=
  ("range", ⟨bounds first last, ofJson? (bounds first last)⟩)

private theorem boundsOf?_written (first last : UInt64) (others : RuleMembers) :
    boundsOf? (commonReadings target included ++ boundsReading first last :: others) =
      some (first, last) := by
  have lower := boundOf?_number first
  have upper := boundOf?_number last
  show (do
    return (← boundOf? (.number (.ofUInt64 first)), ← boundOf? (.number (.ofUInt64 last)))) = _
  rw [lower, upper]
  rfl

private theorem toJson_ne_null (projection : Projection) : projection.toJson ≠ .null := by
  match projection with
  | .field target included recursive => nofun
  | .range target included first last none => nofun
  | .range target included first last (some project) => nofun
  | .list rules => nofun

private theorem projectOf?_of_read {value : Json} {project : Projection} (notNull : value ≠ .null)
    (written : members.lookup "project" = some ⟨value, some project⟩) :
    projectOf? members = some (some project) := by
  rw [projectOf?, written]
  cases value with
  | null => exact absurd rfl notNull
  | _ => rfl

/-- The member of a range that holds the projection of its elements, as it is read. -/
def projectReading : Option Projection → RuleMembers
  | none => []
  | some project => [("project", ⟨project.toJson, some project⟩)]

private theorem projectOf?_written (first last : UInt64) (project : Option Projection) :
    projectOf? (commonReadings target included ++
        boundsReading first last :: projectReading project) = some project := by
  cases project with
  | none => rfl
  | some project => exact projectOf?_of_read (toJson_ne_null project) rfl

private theorem ofMembers?_range (writable : IsWritable target) (first last : UInt64)
    (project : Option Projection) :
    ofMembers? (commonReadings target included ++
        boundsReading first last :: projectReading project) =
      some (.range target included first last project) := by
  have known :
      (commonReadings target included ++ boundsReading first last :: projectReading project).all
        (fun member => rangeMembers.contains member.1) = true := by
    cases project <;> rfl
  rw [ofMembers?, rangeRule?, known, boundsOf?_written, pathOf?_commonReadings writable,
    flagOf?_include, projectOf?_written]
  rfl

mutual

private theorem ofJson?_toJson :
    ∀ {projection : Projection},
      (∀ path ∈ projection.paths, IsWritable path) → ofJson? projection.toJson = some projection
  | .field target included recursive, writable => by
      have writableTarget : IsWritable target := writable target (List.mem_singleton_self target)
      have asRead :
          readMembers (commonMembers target included ++
              if recursive then [("recursive", .bool true)] else []) =
            commonReadings target included ++
              if recursive then [("recursive", ⟨.bool true, none⟩)] else [] := by
        rw [readMembers_append, readMembers_commonMembers]
        cases recursive <;> rfl
      rw [toJson, ofJson?, asRead]
      exact ofMembers?_field writableTarget recursive
  | .range target included first last none, writable => by
      have writableTarget : IsWritable target := writable target (List.mem_singleton_self target)
      rw [toJson, ofJson?, readMembers_append, readMembers_commonMembers]
      exact ofMembers?_range writableTarget first last none
  | .range target included first last (some project), writable => by
      have writableTarget : IsWritable target := writable target List.mem_cons_self
      have nested : ofJson? project.toJson = some project :=
        ofJson?_toJson fun path listed => writable path (List.mem_cons_of_mem target listed)
      have asRead :
          readMembers [("range", bounds first last), ("project", project.toJson)] =
            boundsReading first last :: projectReading (some project) := by
        rw [readMembers, readMembers, readMembers, nested]
        rfl
      rw [toJson, ofJson?, readMembers_append, readMembers_commonMembers, asRead]
      exact ofMembers?_range writableTarget first last (some project)
  | .list rules, writable => by
      rw [toJson, ofJson?, ofItems?, mapM_readItems_toJsonAll writable]
      rfl

/-- Each rule of a written list is read, and so the list is read as a list before anything else. -/
theorem mapM_readItems_toJsonAll :
    ∀ {rules : List Projection},
      (∀ path ∈ pathsAll rules, IsWritable path) →
        (readItems (toJsonAll rules)).mapM Reading.projection = some rules
  | [], _ => rfl
  | rule :: rest, writable => by
      have first : ofJson? rule.toJson = some rule :=
        ofJson?_toJson fun path listed => writable path (List.mem_append_left _ listed)
      have others : (readItems (toJsonAll rest)).mapM Reading.projection = some rest :=
        mapM_readItems_toJsonAll fun path listed => writable path (List.mem_append_right _ listed)
      rw [toJsonAll, readItems, List.mapM_cons, first, others]
      rfl

end

/-- Every projection is read back from its JSON form if each of its paths is read back from its
written form. -/
theorem ofJson_toJson
    (projection : Projection)
    (writable : ∀ path ∈ projection.paths, ∀ segment ∈ path.segments,
      segment ≠ "" ∧ '.' ∉ segment.toList) :
    ofJson projection.toJson = .ok projection := by
  rw [ofJson, ofJson?_toJson writable]
  rfl

/-- A list in a list, an excluded range that begins behind its end, and a projection of elements that
is a list again are read back. -/
theorem ofJson_toJson_nested :
    let sku : Projection := .list [.field ⟨["sku"]⟩ false true, .list []]
    let lines : Projection := .range ⟨["lines", "*"]⟩ false 4 0 (some sku)
    let projection : Projection := .list [.list [lines], .field .root true false]
    (∀ path ∈ projection.paths, ∀ segment ∈ path.segments,
        segment ≠ "" ∧ '.' ∉ segment.toList) ∧
      ofJson projection.toJson = .ok projection := by
  intro sku lines projection
  have writable :
      ∀ path ∈ projection.paths, ∀ segment ∈ path.segments,
        segment ≠ "" ∧ '.' ∉ segment.toList := by
    decide
  exact ⟨writable, ofJson_toJson projection writable⟩

end Schemata.Projection

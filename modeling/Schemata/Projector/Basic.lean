import Schemata.Path
import Schemata.Text.Quoted

/-!
# Projectors

Projections whose fields have been found in a field tree. A projector decides paths of a
document: it includes a path, excludes it, or leaves it undecided.
-/
namespace Schemata

/-- A projection with absolute paths. A field rule is recursive also if all that it names are
arrays of scalars, which are shown whole. -/
inductive Projector where
  | field (target : Path) (included recursive : Bool)
  | range (target : Path) (included : Bool) (first last : UInt64) (nested : Option Projector)
  | list (items : List Projector)

inductive Decision where
  | included
  | excluded
  | undecided
deriving DecidableEq

namespace Decision

def ofFlag (included : Bool) : Decision :=
  if included then .included else .excluded

def isDecided (decision : Decision) : Bool :=
  decision ≠ .undecided

def flag? : Decision → Option Bool
  | .included => some true
  | .excluded => some false
  | .undecided => none

end Decision

/-- An answer about a path: the decision, the projector for what lies beneath the path if that
is another one, and the rule that decided. -/
structure Projected where
  decision : Decision
  nested : Option Projector
  deciding : Option Projector

namespace Projected

/-- No rule covers the path. -/
def undecided : Projected :=
  ⟨.undecided, none, none⟩

/-- A rule decides, and also decides beneath the path. -/
def decided (decision : Decision) (rule : Projector) : Projected :=
  ⟨decision, none, some rule⟩

def isDecided (answer : Projected) : Bool :=
  answer.decision.isDecided

end Projected

namespace Projector

/-- A field rule. An inclusion decides the field and its ancestors, which have to be there for
the field to be seen; an exclusion decides the field only. A recursive rule also decides
everything beneath the field. -/
def projectField (rule : Projector) (target : Path) (included recursive : Bool) (path : Path) :
    Projected :=
  if path.leadsTo target then
    if included || path.fits target then .decided (.ofFlag included) rule else .undecided
  else if recursive && path.liesBeneath target then .decided (.ofFlag included) rule
  else .undecided

/-- The path addresses an element within the range, or something beneath one. -/
def selects (target : Path) (first last : UInt64) (path : Path) : Bool :=
  path.liesBeneath target &&
    (path.index? target.length).any fun index =>
      first.toNat ≤ index && index ≤ last.toNat

/-- A range rule. An inclusion decides the array and its ancestors. Of the elements, and of
what lies beneath them, those within the range are decided; with a nested projector only the
elements themselves are, and an included element hands on to it. -/
def projectRange (rule : Projector) (target : Path) (included : Bool) (first last : UInt64)
    (nested : Option Projector) (path : Path) : Projected :=
  if path.leadsTo target then
    if included then .decided .included rule else .undecided
  else if selects target first last path then
    if path.length = target.length + 1 then
      ⟨.ofFlag included, if included then nested else none, some rule⟩
    else if nested.isNone then .decided (.ofFlag included) rule
    else .undecided
  else .undecided

mutual

/-- What a projector says about a path. -/
def project : Projector → Path → Projected
  | .field target included recursive, path =>
      projectField (.field target included recursive) target included recursive path
  | .range target included first last nested, path =>
      projectRange (.range target included first last nested) target included first last nested path
  | .list items, path => projectLast items path

/-- What the last of some projectors that decides a path says about it. -/
def projectLast : List Projector → Path → Projected
  | [], _ => .undecided
  | item :: rest, path =>
      let later := projectLast rest path
      if later.isDecided then later else project item path

end

def lastDecider? (items : List Projector) (path : Path) : Option (Projector × Nat) :=
  items.zipIdx.reverse.find? fun item => (project item.1 path).isDecided

mutual

/-- Some rule names one path and nothing beneath it. -/
def exactMatch : Projector → Bool
  | .field target _ recursive => !recursive && !target.hasWildcard
  | .range target _ _ _ _ => !target.hasWildcard
  | .list items => anyExactMatch items

def anyExactMatch : List Projector → Bool
  | [] => false
  | item :: rest => exactMatch item || anyExactMatch rest

end

mutual

/-- Some rule includes something. Where one does, fields without a rule are not shown. -/
def hasInclusion : Projector → Bool
  | .field _ included _ => included
  | .range _ included _ _ _ => included
  | .list items => anyInclusion items

def anyInclusion : List Projector → Bool
  | [] => false
  | item :: rest => hasInclusion item || anyInclusion rest

end

def recordText (name : String) (fields : List (String × String)) : String :=
  name ++ " \x7b " ++ ", ".intercalate (fields.map fun field => field.1 ++ ": " ++ field.2) ++
    " \x7d"

def pathText (path : Path) : String :=
  recordText "Path" [("segments", Text.bracketed (path.segments.map Text.quoted))]

mutual

def describe : Projector → String
  | .field target included recursive =>
      recordText "FieldProjector" [("field", pathText target), ("include", toString included),
        ("recursive", toString recursive)]
  | .range target included first last nested =>
      recordText "ArrayRangeProjector" [("field", pathText target),
        ("include", toString included), ("from", toString first.toNat),
        ("to", toString last.toNat), ("nested", describeNested nested)]
  | .list items =>
      recordText "ListProjector" [("items", Text.bracketed (describeAll items))]

def describeNested : Option Projector → String
  | none => "None"
  | some projector => "Some(" ++ describe projector ++ ")"

def describeAll : List Projector → List String
  | [] => []
  | item :: rest => describe item :: describeAll rest

end

end Projector
end Schemata

import Schemata.Text.Digits

/-!
# Paths

A path addresses a place in a document or in a field tree by its segments, written with dots
between them as in `lines.3.sku`. A segment of digits may select an array element; the segment
`*` stands for any single segment.
-/
namespace Schemata

structure Path where
  segments : List String
deriving DecidableEq, Hashable

inductive PathError where
  | emptySegment (text : String)
deriving DecidableEq

def PathError.message : PathError → String
  | .emptySegment text => "invalid path '" ++ text ++ "': empty segment"

namespace Path

def wildcard : String := "*"

def root : Path := ⟨[]⟩

def render (path : Path) : String :=
  ".".intercalate path.segments

def pieces (text : String) : List String :=
  (text.toList.splitOn '.').map String.ofList

/-- Reads a written path. The empty text is the root; no other path has an empty segment. -/
def parse (text : String) : Except PathError Path :=
  if text = "" then .ok root
  else if "" ∈ pieces text then .error (.emptySegment text)
  else .ok ⟨pieces text⟩

/-- The path of some segments. They may hold dots, but none may be empty. -/
def ofSegments (segments : List String) : Except PathError Path :=
  if "" ∈ segments then .error (.emptySegment (".".intercalate segments))
  else .ok ⟨segments⟩

def length (path : Path) : Nat :=
  path.segments.length

def isRoot (path : Path) : Bool :=
  path.segments.isEmpty

def segment? (path : Path) (place : Nat) : Option String :=
  path.segments[place]?

def last? (path : Path) : Option String :=
  path.segments.getLast?

/-- The array index that a segment writes: digits, perhaps behind a plus sign, of a number
below `2 ^ 64`. -/
def indexOf? (segment : String) : Option Nat :=
  let digits := match segment.toList with
    | '+' :: digits => digits
    | digits => digits
  (Text.readNat? digits).filter (· < UInt64.size)

def index? (path : Path) (place : Nat) : Option Nat :=
  (path.segment? place).bind indexOf?

/-- A segment that selects the elements of an array: an index or the wildcard. -/
def selectsElement (segment : String) : Bool :=
  segment = wildcard || (indexOf? segment).isSome

def hasWildcard (path : Path) : Bool :=
  path.segments.contains wildcard

/-- The first segments, at most `count`. -/
def take (path : Path) (count : Nat) : Path :=
  ⟨path.segments.take count⟩

/-- What follows the first `count` segments. -/
def drop (path : Path) (count : Nat) : Path :=
  ⟨path.segments.drop count⟩

def append (path other : Path) : Path :=
  ⟨path.segments ++ other.segments⟩

instance : Append Path := ⟨append⟩

def child (path : Path) (segment : String) : Path :=
  ⟨path.segments ++ [segment]⟩

/-- The path without its last segment; the root has none. -/
def parent? (path : Path) : Option Path :=
  if path.isRoot then none else some ⟨path.segments.dropLast⟩

/-- Paths are ordered like words, segment by segment. -/
instance : LT Path := ⟨fun left right => left.segments < right.segments⟩

instance (left right : Path) : Decidable (left < right) :=
  inferInstanceAs (Decidable (left.segments < right.segments))

/-- Two segments agree, or one of them is the wildcard. -/
def segmentFits (segment pattern : String) : Bool :=
  segment = pattern || segment = wildcard || pattern = wildcard

def segmentsFit : List String → List String → Bool
  | [], [] => true
  | segment :: rest, pattern :: more =>
      segmentFits segment pattern && segmentsFit rest more
  | _, _ => false

/-- The first list fits the beginning of the second. -/
def segmentsLeadTo : List String → List String → Bool
  | [], _ => true
  | segment :: rest, pattern :: more =>
      segmentFits segment pattern && segmentsLeadTo rest more
  | _ :: _, [] => false

/-- The first list is longer than the second and begins with a fit of it. -/
def segmentsLieBeneath : List String → List String → Bool
  | [], _ => false
  | _ :: _, [] => true
  | segment :: rest, pattern :: more =>
      segmentFits segment pattern && segmentsLieBeneath rest more

def fits (path pattern : Path) : Bool :=
  segmentsFit path.segments pattern.segments

/-- The path addresses what the pattern addresses or one of its ancestors. -/
def leadsTo (path pattern : Path) : Bool :=
  segmentsLeadTo path.segments pattern.segments

/-- The path addresses something strictly beneath what the pattern addresses. -/
def liesBeneath (path pattern : Path) : Bool :=
  segmentsLieBeneath path.segments pattern.segments

end Path
end Schemata

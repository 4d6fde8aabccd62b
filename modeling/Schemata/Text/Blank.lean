/-!
# Blank characters

White space in the sense of the Unicode property `White_Space`: `isBlank` decides it, and
`trimBlank` cuts it off both ends of a text.
-/
namespace Schemata.Text

/-- The code points of the property `White_Space`, as closed ranges in ascending order. -/
def blankRanges : List (Nat × Nat) :=
  [(0x09, 0x0d), (0x20, 0x20), (0x85, 0x85), (0xa0, 0xa0), (0x1680, 0x1680),
    (0x2000, 0x200a), (0x2028, 0x2029), (0x202f, 0x202f), (0x205f, 0x205f),
    (0x3000, 0x3000)]

def inRanges (ranges : List (Nat × Nat)) (code : Nat) : Bool :=
  ranges.any fun range => range.1 ≤ code && code ≤ range.2

/-- A character of the property `White_Space`. -/
def isBlank (c : Char) : Bool :=
  inRanges blankRanges c.toNat

def skipBlank (text : List Char) : List Char :=
  text.dropWhile isBlank

def trimBlank (text : List Char) : List Char :=
  (skipBlank (skipBlank text).reverse).reverse

end Schemata.Text

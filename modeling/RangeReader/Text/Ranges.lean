/-!
# Sets of characters as ordered ranges

A property of characters is a list of ranges of code points, in increasing
order and with both ends included. Looking one up stops at the first range
that starts beyond the character.
-/

namespace RangeReader.Text

/-- The range of an ordered list that holds a code point. -/
def findRange? : List (Nat × Nat) → Nat → Option (Nat × Nat)
  | [], _ => none
  | (first, last) :: ranges, c =>
    if c < first then none
    else if c ≤ last then some (first, last)
    else findRange? ranges c

/-- Whether a code point lies in one of the ranges. -/
def inRanges (ranges : List (Nat × Nat)) (c : Nat) : Bool := (findRange? ranges c).isSome

end RangeReader.Text

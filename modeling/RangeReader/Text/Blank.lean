import RangeReader.Text.Ranges

/-!
# Blank characters

The blanks that may surround a number in a text are the characters with the
White_Space property of Unicode. The four information separators, which some
tables count as blanks, are not among them.
-/

namespace RangeReader.Text

/-- The ranges of the White_Space property. -/
def whiteSpaceRanges : List (Nat × Nat) :=
  [(0x0009, 0x000D), (0x0020, 0x0020), (0x0085, 0x0085), (0x00A0, 0x00A0), (0x1680, 0x1680),
    (0x2000, 0x200A), (0x2028, 0x2029), (0x202F, 0x202F), (0x205F, 0x205F), (0x3000, 0x3000)]

/-- Whether a character has the White_Space property. -/
def isWhiteSpace (c : Char) : Bool := inRanges whiteSpaceRanges c.toNat

/-- A text without the characters of a class at its two ends. -/
def trimmed (drop : Char → Bool) (cs : List Char) : List Char :=
  ((cs.dropWhile drop).reverse.dropWhile drop).reverse

end RangeReader.Text

/-!
# Rounding a quotient to an integer

Every number this library writes or reads in a rounded form – a double read
from decimal text, a wait written with two places, a size written with one –
is one exact quotient of natural numbers rounded once. The rule is always
the same, to the nearest integer and to the even one of two nearest, so it
is stated here once.
-/

namespace RangeReader

/-- **The nearest integer to a quotient**, a tie going to the even
neighbour. A zero divisor gives `0`, as division of natural numbers
does. -/
def roundHalfEven (num den : Nat) : Nat :=
  let floor := num / den
  let twice := 2 * (num % den)
  if twice < den then floor
  else if den < twice then floor + 1
  else if floor % 2 = 0 then floor
  else floor + 1

end RangeReader

import RangeReader.Number.Binary64

/-!
# The shortest decimal text of a double

A double stands for every real number that rounds to it. Of the decimals in
that interval the text of a double takes one with the fewest digits, and of
those the nearest to the double. `Binary64.shortest` finds it grid by grid,
from coarse to fine: on the grid of multiples of `10^k` only the two
neighbours of the number can lie in the interval first, so the first grid
where one does decides the number of digits.

How the digits are laid out is a separate matter and is one record,
`DecimalLayout.plain`.
-/

namespace RangeReader

namespace Binary64

/-- A grid of decimals in the search: whether the floor of the number, and
the point above it, round to the number. Both are counted in units of
`10^k`. -/
def gridHit (m : Nat) (e : Int) (k : Int) : Option Nat :=
  -- in quarters of the unit of the mantissa the number is `4m`
  let above := 4 * m + 2
  let below := if m = fractionModulus ∧ -1074 < e then 4 * m - 1 else 4 * m - 2
  let num := Nat.pow 2 (e - 2).toNat * Nat.pow 10 (-k).toNat
  let den := Nat.pow 2 (2 - e).toNat * Nat.pow 10 k.toNat
  let inside (c : Nat) : Bool :=
    if m % 2 = 0 then below * num ≤ c * den && c * den ≤ above * num
    else below * num < c * den && c * den < above * num
  let floor := 4 * m * num / den
  let lower := inside floor
  let upper := inside (floor + 1)
  if lower && upper then
    let left := 4 * m * num - floor * den
    let right := (floor + 1) * den - 4 * m * num
    if left < right then some floor
    else if right < left then some (floor + 1)
    else some (if floor % 2 = 0 then floor else floor + 1)
  else if lower then some floor
  else if upper then some (floor + 1)
  else none

/-- The search from the grid of `10^k` down, with the number of grids left.
Seventeen digits always suffice, so the bound of the caller is not met. -/
def shortestFrom (m : Nat) (e : Int) : Nat → Int → Nat × Int
  | 0, k => (0, k)
  | grids + 1, k =>
    match gridHit m e k with
    | some c => (c, k)
    | none => shortestFrom m e grids (k - 1)

/-- **The shortest decimal of `m · 2^e`**, as digits and an exponent of ten.
The first grid tried is coarser than the number itself. -/
def shortest (m : Nat) (e : Int) : Nat × Int :=
  shortestFrom m e 24 (((m.log2 : Int) + e + 1) * 30103 / 100000 + 2)

end Binary64

/-- **How the digits of a number are laid out**: which decimal exponents are
written positionally, what follows an integer, and the least number of
digits of a written exponent. -/
structure DecimalLayout where
  /-- The least exponent written positionally. -/
  leastPositional : Int
  /-- The least exponent above it that is written with a mark. -/
  leastMarked : Int
  /-- What an integer written positionally ends with. -/
  integerTail : String
  /-- The mark of an exponent. -/
  mark : String
  /-- The least number of digits of an exponent, its sign not counted. -/
  exponentDigits : Nat

namespace DecimalLayout

/-- Numbers from a ten-thousandth up to below ten to the sixteenth are
written positionally, an integer with a zero after the point, and an
exponent has a sign and at least two digits. -/
def plain : DecimalLayout := ⟨-4, 16, ".0", "e", 2⟩

/-- A text filled with zeros on the left. -/
def padded (width : Nat) (digits : String) : String :=
  "".pushn '0' (width - digits.length) ++ digits

/-- The text of `digits · 10^k`, with `digits` not zero. -/
def write (layout : DecimalLayout) (digits : Nat) (k : Int) : String :=
  let text := toString digits
  let count := text.length
  let point : Int := count + k
  let exponent := point - 1
  if layout.leastPositional ≤ exponent ∧ exponent < layout.leastMarked then
    if point ≤ 0 then "0." ++ "".pushn '0' (-point).toNat ++ text
    else if (count : Int) ≤ point then
      text ++ "".pushn '0' (point - count).toNat ++ layout.integerTail
    else String.ofList (text.toList.take point.toNat) ++ "."
      ++ String.ofList (text.toList.drop point.toNat)
  else
    let tail := String.ofList (text.toList.drop 1)
    String.ofList (text.toList.take 1) ++ (if tail.isEmpty then "" else "." ++ tail)
      ++ layout.mark ++ (if exponent < 0 then "-" else "+")
      ++ padded layout.exponentDigits (toString exponent.natAbs)

end DecimalLayout

/-- **The text of a double**: its shortest decimal in the plain layout, a
zero with its sign, and words for what is not a finite number. -/
def Binary64.text (x : Binary64) : String :=
  match x.reading with
  | .nan => "nan"
  | .infinite s => if s then "-inf" else "inf"
  | .finite s m e =>
    let sign := if s then "-" else ""
    if m = 0 then sign ++ "0.0"
    else
      let (digits, k) := Binary64.shortest m e
      sign ++ DecimalLayout.plain.write digits k

end RangeReader

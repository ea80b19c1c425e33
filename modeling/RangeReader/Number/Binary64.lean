import RangeReader.Number.Rounding

/-!
# Double-precision numbers

A double is kept as its 64 bits, and everything asked of it is answered on
the exact binary fraction the bits denote: `Reading.finite s m e` is
`±m · 2^e`. No operation here goes through machine arithmetic. Rounding a
rational to a double, comparing a double with an integer of any size and
taking the decimals of a double are all statements about natural numbers.

The one place where information is lost is `ofRatio`, the double nearest to
a rational. Its encoding is a single formula for normal and subnormal
numbers alike: with `2^52 ≤ m ≤ 2^53` or with the least exponent, the bits
of `m · 2^e` are `(e + 1074) · 2^52 + m`, because a mantissa that reaches
`2^53` carries into the exponent field by itself.
-/

namespace RangeReader

/-- A double, by its bits: one of sign, eleven of exponent, fifty-two of
fraction. -/
structure Binary64 where
  /-- The sixty-four bits. -/
  bits : UInt64
  deriving DecidableEq, Repr, Inhabited

namespace Binary64

/-- **What a double denotes.** -/
inductive Reading where
  /-- Not a number. -/
  | nan
  /-- An infinity, by its sign. -/
  | infinite (negative : Bool)
  /-- The number `±mantissa · 2^exponent`. -/
  | finite (negative : Bool) (mantissa : Nat) (exponent : Int)
  deriving DecidableEq, Repr

/-- `2^52`: the values of the fraction, and the least mantissa of a normal
number. -/
def fractionModulus : Nat := 0x10000000000000

/-- `2^63`: the values of the bits below the sign. -/
def magnitudeModulus : Nat := 0x8000000000000000

/-- The sign bit. -/
def isNegative (x : Binary64) : Bool := decide (magnitudeModulus ≤ x.bits.toNat)

/-- The eleven bits of the exponent. -/
def exponentField (x : Binary64) : Nat := x.bits.toNat / fractionModulus % 2048

/-- The fifty-two bits of the fraction. -/
def fractionField (x : Binary64) : Nat := x.bits.toNat % fractionModulus

/-- The number the bits denote. -/
def reading (x : Binary64) : Reading :=
  if x.exponentField = 2047 then
    if x.fractionField = 0 then .infinite x.isNegative else .nan
  else if x.exponentField = 0 then .finite x.isNegative x.fractionField (-1074)
  else .finite x.isNegative (fractionModulus + x.fractionField) ((x.exponentField : Int) - 1075)

/-- Whether the double is not a number. -/
def isNan (x : Binary64) : Bool := x.reading == .nan

/-- Whether the double is one of the two zeros. -/
def isZero (x : Binary64) : Bool := x.bits.toNat % magnitudeModulus = 0

/-- The double of a sign and the sixty-three bits below it. -/
def ofMagnitude (negative : Bool) (magnitude : Nat) : Binary64 :=
  ⟨UInt64.ofNat ((if negative then magnitudeModulus else 0) + magnitude)⟩

/-- The bits of infinity below the sign. -/
def infiniteMagnitude : Nat := 2047 * fractionModulus

/-- Positive or negative infinity. -/
def infinity (negative : Bool) : Binary64 := ofMagnitude negative infiniteMagnitude

/-- The highest bit of the fraction, set in a quiet value that is not a
number. -/
def quietBit : Nat := 0x8000000000000

/-- The quiet value that is not a number, without payload. -/
def nan : Binary64 := ofMagnitude false (infiniteMagnitude + quietBit)

/-- **The double nearest to `±num / den`**, a tie going to the even mantissa
and a magnitude beyond the largest double to infinity.

The exponent is chosen so that the quotient in units of `2^e` lies between
`2^52` and `2^53`, and is never below the exponent of the subnormals. -/
def ofRatio (negative : Bool) (num den : Nat) : Binary64 :=
  if num = 0 then ofMagnitude negative 0
  else
    let scaled (e : Int) : Nat × Nat := (num * Nat.pow 2 (-e).toNat, den * Nat.pow 2 e.toNat)
    let low : Int := max ((num.log2 : Int) - (den.log2 : Int) - 53) (-1074)
    let (n, d) := scaled low
    let e := if n / d < 2 * fractionModulus then low else low + 1
    let (n, d) := scaled e
    let magnitude := (e + 1074).toNat * fractionModulus + roundHalfEven n d
    if infiniteMagnitude ≤ magnitude then infinity negative else ofMagnitude negative magnitude

/-- The double nearest to an integer. -/
def ofInt (n : Int) : Binary64 := ofRatio (n < 0) n.natAbs 1

/-- The double nearest to `±digits · 10^exponent`. An exponent so large or so
small that the result is certain is not raised to a power. -/
def ofDecimal (negative : Bool) (digits : Nat) (exponent : Int) : Binary64 :=
  let size : Int := exponent + (Nat.toDigits 10 digits).length
  if digits = 0 then ofMagnitude negative 0
  else if 400 < size then infinity negative
  else if size < -400 then ofMagnitude negative 0
  else ofRatio negative (digits * Nat.pow 10 exponent.toNat) (Nat.pow 10 (-exponent).toNat)

/-- A sign and a magnitude as an integer. -/
def signed (negative : Bool) (n : Nat) : Int := if negative then -(n : Int) else n

/-- **The order of `a · 2^e` and `b · 2^f`**, both brought to the smaller
exponent. -/
def compareScaled (a : Int) (e : Int) (b : Int) (f : Int) : Ordering :=
  let k := min e f
  compare (a * (Nat.pow 2 (e - k).toNat : Nat)) (b * (Nat.pow 2 (f - k).toNat : Nat))

/-- The order of two doubles as numbers: none where either is not one. -/
def compare? (x y : Binary64) : Option Ordering :=
  match x.reading, y.reading with
  | .nan, _ => none
  | _, .nan => none
  | .infinite s, .infinite t => some (compare (signed s 1) (signed t 1))
  | .infinite s, .finite .. => some (if s then .lt else .gt)
  | .finite .., .infinite t => some (if t then .gt else .lt)
  | .finite s m e, .finite t n f => some (compareScaled (signed s m) e (signed t n) f)

/-- The order of a double and an integer, exact however large the
integer. -/
def compareInt? (x : Binary64) (n : Int) : Option Ordering :=
  match x.reading with
  | .nan => none
  | .infinite s => some (if s then .lt else .gt)
  | .finite s m e => some (compareScaled (signed s m) e n 0)

/-- The integer part of a finite double, fractions dropped. -/
def truncated? (x : Binary64) : Option Int :=
  match x.reading with
  | .finite s m e => some (signed s (m * Nat.pow 2 e.toNat / Nat.pow 2 (-e).toNat))
  | _ => none

/-- Whether a finite double is an integer. -/
def isIntegral (x : Binary64) : Bool :=
  match x.reading with
  | .finite _ m e => m * Nat.pow 2 e.toNat % Nat.pow 2 (-e).toNat = 0
  | _ => false

/-- **The quotient of two doubles**, rounded once. -/
def div (x y : Binary64) : Binary64 :=
  let s := x.isNegative != y.isNegative
  match x.reading, y.reading with
  | .finite _ m e, .finite _ n f =>
    if n = 0 then (if m = 0 then nan else infinity s)
    else ofRatio s (m * Nat.pow 2 (e - f).toNat) (n * Nat.pow 2 (f - e).toNat)
  | .infinite _, .finite .. => infinity s
  | .finite .., .infinite _ => ofMagnitude s 0
  | _, _ => nan

/-- **The product of two doubles**, rounded once. -/
def mul (x y : Binary64) : Binary64 :=
  let s := x.isNegative != y.isNegative
  match x.reading, y.reading with
  | .finite _ m e, .finite _ n f =>
    ofRatio s (m * n * Nat.pow 2 (e + f).toNat) (Nat.pow 2 (-(e + f)).toNat)
  | .nan, _ => nan
  | _, .nan => nan
  | _, _ => if x.isZero || y.isZero then nan else infinity s

/-- **The sum of two doubles**, rounded once. A sum that is zero is negative only
where both are. -/
def add (x y : Binary64) : Binary64 :=
  match x.reading, y.reading with
  | .finite s m e, .finite t n f =>
    let k := min e f
    let sum := signed s (m * Nat.pow 2 (e - k).toNat) + signed t (n * Nat.pow 2 (f - k).toNat)
    if sum = 0 then ofMagnitude (s && t) 0
    else ofRatio (sum < 0) (sum.natAbs * Nat.pow 2 k.toNat) (Nat.pow 2 (-k).toNat)
  | .infinite s, .infinite t => if s = t then infinity s else nan
  | .infinite s, .finite .. => infinity s
  | .finite .., .infinite t => infinity t
  | _, _ => nan

/-- The smaller of two doubles; the first where they do not compare. -/
def least (x y : Binary64) : Binary64 := if y.compare? x = some .lt then y else x

/-- The larger of two doubles; the first where they do not compare. -/
def greatest (x y : Binary64) : Binary64 := if y.compare? x = some .gt then y else x

/-- **The double of a single-precision number**, by its 32 bits. Widening is
exact; a value that is not a number keeps its payload and becomes quiet. -/
def ofSingle (bits : Nat) : Binary64 :=
  let negative := decide (0x80000000 ≤ bits)
  let exponent := bits / 0x800000 % 0x100
  let fraction := bits % 0x800000
  if exponent = 255 then
    if fraction = 0 then infinity negative
    else ofMagnitude negative (infiniteMagnitude + (fraction * 0x20000000 ||| quietBit))
  else
    let (m, e) := if exponent = 0 then (fraction, 1) else (0x800000 + fraction, exponent)
    ofRatio negative (m * Nat.pow 2 (e - 150)) (Nat.pow 2 (150 - e))

end Binary64

end RangeReader

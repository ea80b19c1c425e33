import RangeReader.Number.Binary64
import RangeReader.Text.Blank
import RangeReader.Text.DecimalDigit

/-!
# Doubles written in a text

`readDouble?` takes the decimal forms of a double: white space around it, a
sign, digits of any script with single underscores between them, a point, an
exponent, and the words for infinity and for what is not a number.
-/

namespace RangeReader

open Text

/-- The digits at the front of a text, with single underscores between
them; the value and number of the digits, and the rest. An underscore that
does not stand between two digits stays in the rest. -/
def readDigits (value count : Nat) : List Char → Nat × Nat × List Char
  | [] => (value, count, [])
  | '_' :: c :: rest =>
    match digitValue? c with
    | some d =>
      if count = 0 then (value, count, '_' :: c :: rest)
      else readDigits (value * 10 + d) (count + 1) rest
    | none => (value, count, '_' :: c :: rest)
  | c :: rest =>
    match digitValue? c with
    | some d => readDigits (value * 10 + d) (count + 1) rest
    | none => (value, count, c :: rest)

/-- A sign at the front of a text, and the rest. -/
def readSign : List Char → Bool × List Char
  | '-' :: rest => (true, rest)
  | '+' :: rest => (false, rest)
  | cs => (false, cs)

/-- The exponent that ends a decimal: zero where there is none. -/
def readExponent? : List Char → Option Int
  | [] => some 0
  | e :: rest =>
    if e = 'e' ∨ e = 'E' then
      let (negative, rest) := readSign rest
      match readDigits 0 0 rest with
      | (value, count, []) => if count = 0 then none else some (Binary64.signed negative value)
      | _ => none
    else none

/-- **The double written in a text.** -/
def readDouble? (s : String) : Option Binary64 :=
  let (negative, body) := readSign (trimmed isWhiteSpace s.toList)
  let word := String.ofList (body.map Char.toLower)
  if word = "inf" ∨ word = "infinity" then some (Binary64.infinity negative)
  else if word = "nan" then
    some (if negative then ⟨Binary64.nan.bits + 0x8000000000000000⟩ else Binary64.nan)
  else
    let (whole, wholeCount, rest) := readDigits 0 0 body
    let (value, fractionCount, rest) :=
      match rest with
      | '.' :: fraction =>
        let (value, count, rest) := readDigits 0 0 fraction
        (whole * Nat.pow 10 count + value, count, rest)
      | _ => (whole, 0, rest)
    if wholeCount + fractionCount = 0 then none
    else (readExponent? rest).map fun exponent =>
      Binary64.ofDecimal negative value (exponent - fractionCount)

end RangeReader

import RangeReader.Text.Utf8

/-!
# Percent encoding

A segment of a URL keeps the unreserved characters – the letters and digits
of ASCII and `_`, `.`, `-`, `~` – and writes every other byte of its UTF-8
form as `%` and two hexadecimal digits in upper case. A slash is not kept, so
a segment can hold any text and still be one segment.
-/

namespace RangeReader.Text.Percent

/-- Whether a byte stands for itself. -/
def isUnreserved (b : UInt8) : Bool :=
  let n := b.toNat
  (48 ≤ n && n ≤ 57) || (65 ≤ n && n ≤ 90) || (97 ≤ n && n ≤ 122)
    || n = 95 || n = 46 || n = 45 || n = 126

/-- A hexadecimal digit, in upper case. -/
def hexUpper (n : Nat) : Char :=
  if n < 10 then Char.ofNat (48 + n) else Char.ofNat (55 + n)

/-- The characters of one byte. -/
def encodeByte (b : UInt8) : List Char :=
  if isUnreserved b then [Char.ofNat b.toNat]
  else ['%', hexUpper (b.toNat / 16), hexUpper (b.toNat % 16)]

/-- **A text as one segment of a URL.** -/
def encode (s : String) : String := String.ofList ((Utf8.encode s).flatMap encodeByte)

/-- The value of a hexadecimal digit, in either case. -/
def hexValue? (c : Char) : Option Nat :=
  let n := c.toNat
  if 48 ≤ n ∧ n ≤ 57 then some (n - 48)
  else if 65 ≤ n ∧ n ≤ 70 then some (n - 55)
  else if 97 ≤ n ∧ n ≤ 102 then some (n - 87)
  else none

/-- The bytes that a segment stands for; none where a percent sign is not
followed by two digits or a character is not ASCII. -/
def decodeBytes? : List Char → Option (List UInt8)
  | [] => some []
  | '%' :: h :: l :: rest => do
    let high ← hexValue? h
    let low ← hexValue? l
    let bytes ← decodeBytes? rest
    return UInt8.ofNat (16 * high + low) :: bytes
  | c :: rest =>
    if c = '%' ∨ 0x80 ≤ c.toNat then none
    else (decodeBytes? rest).map (UInt8.ofNat c.toNat :: ·)

/-- The text that a segment stands for. -/
def decode? (s : String) : Option String := do
  let bytes ← decodeBytes? s.toList
  (Utf8.decode bytes).toOption

end RangeReader.Text.Percent

import RangeReader.Text.Printable

/-!
# Quoted texts and byte strings

Messages show a text in quotes so that it reads back: the quote is `'`
unless the text holds one and holds no `"`; the quote in use and the
backslash are escaped, tab, line feed and carriage return have short
escapes, and any other character that is not printable is written by its
code point in hexadecimal, in the shortest of three widths. A byte string is
quoted the same way behind a `b`, with every byte outside the visible ASCII
characters escaped.
-/

namespace RangeReader.Text

/-- A hexadecimal digit, in lower case. -/
def hexDigit (n : Nat) : Char :=
  if n < 10 then Char.ofNat (48 + n) else Char.ofNat (87 + n)

/-- A number in hexadecimal with a fixed number of digits. -/
def hexFixed : Nat → Nat → List Char
  | 0, _ => []
  | width + 1, n => hexFixed width (n / 16) ++ [hexDigit (n % 16)]

/-- The quote that surrounds a text holding the given characters. -/
def quoteMark (has : Char → Bool) : Char := if has '\'' && !has '"' then '"' else '\''

/-- A character inside a quoted text. -/
def quotedChar (mark c : Char) : List Char :=
  if c = mark ∨ c = '\\' then ['\\', c]
  else if c = '\t' then ['\\', 't']
  else if c = '\n' then ['\\', 'n']
  else if c = '\r' then ['\\', 'r']
  else if isPrintable c then [c]
  else if c.toNat < 0x100 then '\\' :: 'x' :: hexFixed 2 c.toNat
  else if c.toNat < 0x10000 then '\\' :: 'u' :: hexFixed 4 c.toNat
  else '\\' :: 'U' :: hexFixed 8 c.toNat

/-- **A text in quotes.** -/
def quoted (s : String) : String :=
  let mark := quoteMark s.toList.contains
  String.ofList (mark :: s.toList.flatMap (quotedChar mark) ++ [mark])

/-- A byte inside a quoted byte string. -/
def quotedByte (mark : Char) (b : UInt8) : List Char :=
  let c := Char.ofNat b.toNat
  if c = mark ∨ c = '\\' then ['\\', c]
  else if c = '\t' then ['\\', 't']
  else if c = '\n' then ['\\', 'n']
  else if c = '\r' then ['\\', 'r']
  else if 0x20 ≤ b.toNat ∧ b.toNat < 0x7F then [c]
  else '\\' :: 'x' :: hexFixed 2 b.toNat

/-- **A byte string in quotes**, behind a `b`. -/
def quotedBytes (bytes : List UInt8) : String :=
  let mark := quoteMark fun c => bytes.contains (UInt8.ofNat c.toNat)
  String.ofList ('b' :: mark :: bytes.flatMap (quotedByte mark) ++ [mark])

end RangeReader.Text

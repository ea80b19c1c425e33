import RangeReader.Text.Blank
import RangeReader.Text.DecimalDigit

/-!
# Integers written in a text

An integer field may be sent as text, and writers differ: white space around
the number, a plus sign, zeros in front, groups set off by underscores, a
fraction of zeros. `IntegerText.cleaned?` takes all of that off, and what is
left must be the one plain form of an integer – a minus where it is negative,
and digits that do not start with a zero.

The zeros in front end at the first other digit, and also at a minus, so a
minus may stand after zeros as well as before them, though not both. The
underscores among these zeros go with them, in any number. Among the digits
that count an underscore must stand alone, and in a fraction there is none.

A number that is too long is told apart from a text that is no number. Only
its plain form is measured: any number of zeros may go before it.
-/

namespace RangeReader

/-- Why a text gives no integer. -/
inductive IntegerTextFault where
  /-- It is not the text of an integer. -/
  | unreadable
  /-- It has more digits than an integer field may have. -/
  | tooLong
  deriving DecidableEq, Repr

namespace IntegerText

open Text

/-- What is left after zeros, the last of them or of the underscores among
them being given. That one is kept before a point and at the end, where the
number would be left without a digit. -/
def afterZeros? (last : Char) : List Char → Option (List Char)
  | [] => some [last]
  | c :: rest =>
    if c = '0' ∨ c = '_' then afterZeros? c rest
    else if c = '.' then some (last :: c :: rest)
    else if c = '-' ∨ (asciiDigit? c).isSome then some (c :: rest)
    else none

/-- A number without the zeros in front of it. -/
def withoutZeros? : List Char → Option (List Char)
  | [] => none
  | c :: rest =>
    if c = '0' then afterZeros? c rest
    else if c = '-' ∨ (asciiDigit? c).isSome then some (c :: rest)
    else none

/-- A number without a fraction, where that is one of zeros. -/
def withoutFraction (cs : List Char) : List Char :=
  match cs.dropWhile (· ≠ '.') with
  | '.' :: zeros =>
    if !zeros.isEmpty && zeros.all (· = '0') then cs.takeWhile (· ≠ '.') else cs
  | _ => cs

/-- Whether two underscores stand side by side. -/
def hasDoubleUnderscore : List Char → Bool
  | '_' :: '_' :: _ => true
  | _ :: rest => hasDoubleUnderscore rest
  | [] => false

/-- A number without its underscores, where each stands alone and inside. -/
def withoutUnderscores (cs : List Char) : List Char :=
  if cs.head? = some '_' ∨ cs.getLast? = some '_' ∨ hasDoubleUnderscore cs then cs
  else cs.filter (· ≠ '_')

/-- **A text with everything taken off that may surround an integer.** -/
def cleaned? (cs : List Char) : Option (List Char) :=
  let number :=
    match trimmed isWhiteSpace cs with
    | '+' :: '-' :: _ => none
    | '+' :: rest => withoutZeros? rest
    | '-' :: rest => (withoutZeros? rest).map ('-' :: ·)
    | cs => withoutZeros? cs
  number.map fun cs => withoutUnderscores (withoutFraction cs)

/-- The greatest length of a number, its sign counted. -/
def maxLength : Nat := 4300

/-- The number that digits stand for. -/
def ofDigits (digits : List Char) : Nat :=
  digits.foldl (fun n c => n * 10 + (asciiDigit? c).getD 0) 0

/-- The natural number of a text in plain form, the sign before it taking
`signLength` characters. The digits are measured before what follows them is
looked at. -/
def natural (signLength : Nat) (cs : List Char) : Except IntegerTextFault Nat :=
  let digits := cs.takeWhile fun c => (asciiDigit? c).isSome
  if digits.isEmpty ∨ (digits.head? = some '0' ∧ digits.length ≠ 1) then .error .unreadable
  else if maxLength < signLength + digits.length then .error .tooLong
  else if digits.length ≠ cs.length then .error .unreadable
  else .ok (ofDigits digits)

/-- The integer of a text in plain form. -/
def plain : List Char → Except IntegerTextFault Int
  | '-' :: rest => (natural 1 rest).map fun n => -(n : Int)
  | cs => (natural 0 cs).map fun n => (n : Int)

/-- **The integer written in a text.** -/
def read (s : String) : Except IntegerTextFault Int :=
  match cleaned? s.toList with
  | some cs => plain cs
  | none => .error .unreadable

end IntegerText

end RangeReader

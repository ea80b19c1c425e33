/-!
# Base 64

Encoding follows the standard alphabet with padding. Decoding is lenient, as
readers of keys usually are: characters outside the alphabet are skipped,
and a padding sign ends the text only where a group is far enough along for
it. What decoding does refuse is a text that ends inside a group.
-/

namespace RangeReader.Text.Base64

/-- The character of a sextet. -/
def sextetChar (n : Nat) : Char :=
  if n < 26 then Char.ofNat (65 + n)
  else if n < 52 then Char.ofNat (71 + n)
  else if n < 62 then Char.ofNat (n - 4)
  else if n = 62 then '+'
  else '/'

/-- The sextet of a character of the alphabet. -/
def sextet? (c : Char) : Option Nat :=
  let n := c.toNat
  if 65 ≤ n ∧ n ≤ 90 then some (n - 65)
  else if 97 ≤ n ∧ n ≤ 122 then some (n - 71)
  else if 48 ≤ n ∧ n ≤ 57 then some (n + 4)
  else if c = '+' then some 62
  else if c = '/' then some 63
  else none

/-- The characters of a byte string, in groups of four. -/
def encodeChars : List UInt8 → List Char
  | [] => []
  | [a] =>
    [sextetChar (a.toNat / 4), sextetChar (a.toNat % 4 * 16), '=', '=']
  | [a, b] =>
    [sextetChar (a.toNat / 4), sextetChar (a.toNat % 4 * 16 + b.toNat / 16),
      sextetChar (b.toNat % 16 * 4), '=']
  | a :: b :: c :: rest =>
    sextetChar (a.toNat / 4) :: sextetChar (a.toNat % 4 * 16 + b.toNat / 16)
      :: sextetChar (b.toNat % 16 * 4 + c.toNat / 64) :: sextetChar (c.toNat % 64)
      :: encodeChars rest

/-- **The base 64 text of a byte string.** -/
def encode (bytes : List UInt8) : String := String.ofList (encodeChars bytes)

/-- Why a text is not base 64. -/
inductive Fault where
  /-- The last group has a single character, which gives no byte. -/
  | lonelyCharacter (count : Nat)
  /-- The last group is not complete and not padded. -/
  | padding
  deriving DecidableEq, Repr

/-- The words for a fault. -/
def Fault.text : Fault → String
  | .lonelyCharacter count =>
    "Invalid base64-encoded string: number of data characters (" ++ toString count
      ++ ") cannot be 1 more than a multiple of 4"
  | .padding => "Incorrect padding"

/-- Decoding from inside a group: how many characters of the group were
read, the bits they left over, the padding signs seen since the last
character, and how many characters of the alphabet were read in all. -/
def decodeFrom (group left pads count : Nat) : List Char → Except Fault (List UInt8)
  | [] =>
    if group = 0 then .ok []
    else if group = 1 then .error (.lonelyCharacter count)
    else .error .padding
  | c :: rest =>
    if c = '=' then
      if 2 ≤ group then
        if 4 ≤ group + (pads + 1) then .ok [] else decodeFrom group left (pads + 1) count rest
      else decodeFrom group left pads count rest
    else
      match sextet? c with
      | none => decodeFrom group left pads count rest
      | some s =>
        if group = 0 then decodeFrom 1 s 0 (count + 1) rest
        else if group = 1 then
          (decodeFrom 2 (s % 16) 0 (count + 1) rest).map (UInt8.ofNat (left * 4 + s / 16) :: ·)
        else if group = 2 then
          (decodeFrom 3 (s % 4) 0 (count + 1) rest).map (UInt8.ofNat (left * 16 + s / 4) :: ·)
        else (decodeFrom 0 0 0 (count + 1) rest).map (UInt8.ofNat (left * 64 + s) :: ·)

/-- **The bytes of a base 64 text**, leniently. -/
def decode (cs : List Char) : Except Fault (List UInt8) := decodeFrom 0 0 0 0 cs

end RangeReader.Text.Base64

import RangeReader.MessagePack.Timestamp
import RangeReader.Text.Utf8
import RangeReader.Value.Basic

/-!
# Values as MessagePack bytes

Every item is written in the shortest form the format has for it: an
integer in the fewest bytes, unsigned when it is not negative, and the size
of a text, byte string, extension, list or map in the fewest bytes. A double is
always written with eight bytes. The only values without a form are an integer
outside the range from `-2^63` to `2^64 - 1` and a value with more than
`2^32 - 1` bytes, items or entries in one piece. A writer goes down to a given
depth only, as a reader does.
-/

namespace RangeReader

/-- The numbers that four bytes can hold are below this. -/
def sizeLimit : Nat := 0x100000000

namespace MessagePack

/-- What is written with its size in front. -/
inductive Sized where
  | text
  | bytes
  | list
  | map
  | extension
  deriving DecidableEq, Repr

/-- The words for what is written with its size in front. -/
def Sized.words : Sized → String
  | .text => "strings"
  | .bytes => "bytes-like objects"
  | .list => "lists"
  | .map => "dicts"
  | .extension => "Ext objects with data"

/-- **What there is no room for.** -/
inductive NoRoom where
  /-- An integer. -/
  | integer (n : Int)
  /-- A size. -/
  | size (what : Sized) (n : Nat)
  /-- Items nested beyond the bound given to the writer. -/
  | tooDeep
  deriving DecidableEq, Repr

/-- Refuses what is too long. -/
def checkSize (what : Sized) (n : Nat) : Except NoRoom Unit :=
  if n < sizeLimit then .ok () else .error (.size what n)

theorem checkSize_ok {n : Nat} (what : Sized) (h : n < sizeLimit) : checkSize what n = .ok () :=
  if_pos h

theorem lt_of_checkSize {what : Sized} {n : Nat} (h : checkSize what n = .ok ()) :
    n < sizeLimit := by
  unfold checkSize at h
  split at h
  · assumption
  · cases h

/-- **The bytes of an integer.** -/
def writeInt (n : Int) : Except NoRoom (List UInt8) :=
  let m := n.toNat
  if 0 ≤ n then
    if m < 0x80 then .ok [UInt8.ofNat m]
    else if m < 0x100 then .ok (0xCC :: bigEndian 1 m)
    else if m < 0x10000 then .ok (0xCD :: bigEndian 2 m)
    else if m < 0x100000000 then .ok (0xCE :: bigEndian 4 m)
    else if m < 0x10000000000000000 then .ok (0xCF :: bigEndian 8 m)
    else .error (.integer n)
  else
    if -0x20 ≤ n then .ok [UInt8.ofNat (n + 0x100).toNat]
    else if -0x80 ≤ n then .ok (0xD0 :: bigEndian 1 (n + 0x100).toNat)
    else if -0x8000 ≤ n then .ok (0xD1 :: bigEndian 2 (n + 0x10000).toNat)
    else if -0x80000000 ≤ n then .ok (0xD2 :: bigEndian 4 (n + 0x100000000).toNat)
    else if -0x8000000000000000 ≤ n then .ok (0xD3 :: bigEndian 8 (n + 0x10000000000000000).toNat)
    else .error (.integer n)

/-- The head of a text of a given number of bytes. -/
def textHead (size : Nat) : List UInt8 :=
  if size < 32 then [UInt8.ofNat (0xA0 + size)]
  else if size < 0x100 then 0xD9 :: bigEndian 1 size
  else if size < 0x10000 then 0xDA :: bigEndian 2 size
  else 0xDB :: bigEndian 4 size

/-- The head of a byte string of a given size. -/
def bytesHead (size : Nat) : List UInt8 :=
  if size < 0x100 then 0xC4 :: bigEndian 1 size
  else if size < 0x10000 then 0xC5 :: bigEndian 2 size
  else 0xC6 :: bigEndian 4 size

/-- The head of a list of a given number of items. -/
def listHead (count : Nat) : List UInt8 :=
  if count < 16 then [UInt8.ofNat (0x90 + count)]
  else if count < 0x10000 then 0xDC :: bigEndian 2 count
  else 0xDD :: bigEndian 4 count

/-- The head of a map of a given number of entries. -/
def mapHead (count : Nat) : List UInt8 :=
  if count < 16 then [UInt8.ofNat (0x80 + count)]
  else if count < 0x10000 then 0xDE :: bigEndian 2 count
  else 0xDF :: bigEndian 4 count

/-- The head of an extension with data of a given size. -/
def extensionHead (size : Nat) : List UInt8 :=
  if size = 1 then [0xD4]
  else if size = 2 then [0xD5]
  else if size = 4 then [0xD6]
  else if size = 8 then [0xD7]
  else if size = 16 then [0xD8]
  else if size < 0x100 then 0xC7 :: bigEndian 1 size
  else if size < 0x10000 then 0xC8 :: bigEndian 2 size
  else 0xC9 :: bigEndian 4 size

/-- The bytes of a text. -/
def writeText (s : String) : List UInt8 :=
  let body := Text.Utf8.encode s
  textHead body.length ++ body

/-- The bytes of an extension. -/
def writeExtension (type : UInt8) (data : List UInt8) : List UInt8 :=
  extensionHead data.length ++ type :: data

/-- The bytes of things that are written one after the other. -/
def writeAll {α : Type} (write : α → Except NoRoom (List UInt8)) :
    List α → Except NoRoom (List UInt8)
  | [] => .ok []
  | x :: xs => do
    let first ← write x
    let rest ← writeAll write xs
    return first ++ rest

/-- The bytes of an entry of a map. -/
def writeEntry (write : Value → Except NoRoom (List UInt8)) (entry : Value × Value) :
    Except NoRoom (List UInt8) := do
  let key ← write entry.1
  let value ← write entry.2
  return key ++ value

/-- **The bytes of a value.** The first argument bounds the nesting. -/
def writeValue : Nat → Value → Except NoRoom (List UInt8)
  | 0, _ => .error .tooDeep
  | _ + 1, .null => .ok [0xC0]
  | _ + 1, .bool b => .ok [if b then 0xC3 else 0xC2]
  | _ + 1, .int n => writeInt n
  | _ + 1, .float x => .ok (0xCB :: bigEndian 8 x.bits.toNat)
  | _ + 1, .text s => do
    checkSize .text (Text.Utf8.encode s).length
    return writeText s
  | _ + 1, .bytes b => do
    checkSize .bytes b.length
    return bytesHead b.length ++ b
  | depth + 1, .list items => do
    checkSize .list items.length
    let body ← writeAll (writeValue depth) items
    return listHead items.length ++ body
  | depth + 1, .map entries => do
    checkSize .map entries.length
    let body ← writeAll (writeEntry (writeValue depth)) entries
    return mapHead entries.length ++ body
  | _ + 1, .moment t => .ok (writeExtension Timestamp.typeByte (Timestamp.ofMoment t).toBytes)
  | _ + 1, .extension type data => do
    checkSize .extension data.length
    return writeExtension type data

end MessagePack

end RangeReader

import RangeReader.Number.FixedPlaces
import RangeReader.Number.DoubleText
import RangeReader.Fault

/-!
# Byte counts for readers

A number of bytes as a person reads it. Below a thousand it is a whole number
of bytes; from there on it has one decimal and the largest of the units, each
a thousand times the one before, that does not exceed it. A count that would
be shown as a thousand of its unit is shown as one of the next.
-/

namespace RangeReader.ByteCount

/-- The units from a thousand bytes on, each a thousand times the one
before. -/
def unitNames : List String := ["kB", "MB", "GB", "TB", "PB", "EB", "ZB", "YB", "RB", "QB"]

/-- Whether the magnitude of a double is at least `n`. -/
def reaches (x : Binary64) (n : Nat) : Bool :=
  x.compareInt? n matches some .gt | some .eq || x.compareInt? (-n) matches some .lt | some .eq

/-- A double in the unit of `1000^k` bytes. -/
def inUnit (x : Binary64) (k : Nat) : Binary64 := x.div (Binary64.ofInt (Nat.pow 1000 k))

/-- A double in the first of the units that it does not outgrow; the last
one has no larger one after it. -/
def inUnits (x : Binary64) (k : Nat) : List String → String
  | [] => ""
  | [unit] => (inUnit x k).fixed 1 ++ " " ++ unit
  | unit :: larger =>
    if reaches x (Nat.pow 1000 (k + 1)) || (inUnit x k).showsAtLeast 1 1000 then
      inUnits x (k + 1) larger
    else (inUnit x k).fixed 1 ++ " " ++ unit

/-- **A number of bytes as text**; none for what is not a number. -/
def text? (x : Binary64) : Option String :=
  if x.isNan then none
  else if reaches x 1000 then some (inUnits x 1 unitNames)
  else x.truncated?.map fun n =>
    toString n ++ if x.compareInt? n = some .eq ∧ n.natAbs = 1 then " Byte" else " Bytes"

/-- The double written in bytes, which must be ASCII. -/
def readAscii? (bytes : List UInt8) : Option Binary64 :=
  if bytes.all (· < 0x80) then readDouble? (String.ofList (bytes.map fun b => Char.ofNat b.toNat))
  else none

/-- A double that was written in a value, which is refused where there is
none. -/
def readable (v : Value) : Option Binary64 → Except Fault Binary64
  | some x => .ok x
  | none => .error (.unreadableNumber v)

/-- The double that a value stands for. -/
def doubleOf : Value → Except Fault Binary64
  | .bool b => .ok (Binary64.ofInt (if b then 1 else 0))
  | .int n =>
    match (Binary64.ofInt n).truncated? with
    | some _ => .ok (Binary64.ofInt n)
    | none => .error .unrepresentable
  | .float x => .ok x
  | .text s => readable (.text s) (readDouble? s)
  | .bytes b => readable (.bytes b) (readAscii? b)
  | _ => .error .mistyped

/-- **The number of bytes that a value stands for, as text.** -/
def natural (v : Value) : Except Fault String := do
  match text? (← doubleOf v) with
  | some s => return s
  | none => throw .notANumber

end RangeReader.ByteCount

/-!
# Numbers as bytes, the highest first
-/

namespace RangeReader

/-- The low `width` bytes of a number, the highest first. -/
def bigEndian : Nat → Nat → List UInt8
  | 0, _ => []
  | width + 1, n => UInt8.ofNat (n / Nat.pow 256 width) :: bigEndian width n

/-- The number of a byte string, the highest byte first. -/
def ofBigEndian (bytes : List UInt8) : Nat :=
  bytes.foldl (fun n b => n * 256 + b.toNat) 0

/-- The number of a byte string whose highest bit is its sign. -/
def ofSignedBigEndian (bytes : List UInt8) : Int :=
  let n := ofBigEndian bytes
  let values := Nat.pow 256 bytes.length
  if 2 * n < values then (n : Int) else (n : Int) - values

/-- The number of bytes asked for is the number given. -/
@[simp] theorem length_bigEndian (width n : Nat) : (bigEndian width n).length = width := by
  induction width with
  | zero => rfl
  | succ width ih => simp [bigEndian, ih]

end RangeReader

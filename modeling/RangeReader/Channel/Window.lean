import RangeReader.Channel.Read

/-!
# Reading into a part of memory

A window is a part of a block of memory that a read may write to. A read
writes the bytes it gives at the start of the window; all other bytes, inside
the window and outside of it, stay as they are.
-/

namespace RangeReader

/-- **A window** on a block of memory: the bytes from `start` up to
`stop`. -/
structure Window where
  /-- The block. -/
  block : List UInt8
  /-- The offset of the first byte of the window. -/
  start : Nat
  /-- The offset after the last byte of the window. -/
  stop : Nat
  deriving DecidableEq, Repr

namespace Window

/-- A window on a whole block. -/
def whole (block : List UInt8) : Window := ⟨block, 0, block.length⟩

/-- The number of bytes in a window. -/
def capacity (w : Window) : Nat := min w.stop w.block.length - w.start

/-- A window with bytes written at its start. -/
def put (w : Window) (data : List UInt8) : Window :=
  { w with block := w.block.take w.start ++ data ++ w.block.drop (w.start + data.length) }

end Window

/-- The bytes that a delivery writes. -/
def Delivery.written : Delivery → List UInt8
  | .bytes data => data
  | .ended => []
  | .failed _ => []

/-- **Reads into a window.** Without bytes the block is not touched. -/
def Channel.readWindow {σ : Type} (source : Source σ) (w : Window) (c : Channel) (s : σ) :
    Delivery × Window × Channel × σ :=
  match c.readInto source w.capacity s with
  | (.bytes data, c, s) => (.bytes data, w.put data, c, s)
  | (delivery, c, s) => (delivery, w, c, s)

end RangeReader

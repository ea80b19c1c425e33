/-!
# UTF-8

Encoding is character by character. Decoding is a machine that reads one
byte at a time and is either between characters or owes continuation bytes:
after a first byte it knows how many are owed and in which range the next
one must lie, which rules out overlong forms, surrogates and code points
beyond the last one.

A byte that cannot follow ends the sequence before it – that sequence, which
could still have become a character, is one fault – and is then looked at
again as a first byte. A sequence cut off by the end of the input is one
fault too. `pieces` lists characters and faults in order; `decode?` refuses
the first fault and says where it is, `decodeLossy` puts one replacement
character for each.
-/

namespace RangeReader.Text.Utf8

/-- The bytes of one character. -/
def encodeChar (c : Char) : List UInt8 :=
  let n := c.toNat
  let tail (shift : Nat) : UInt8 := UInt8.ofNat (0x80 + (n >>> shift) % 0x40)
  if n < 0x80 then [UInt8.ofNat n]
  else if n < 0x800 then [UInt8.ofNat (0xC0 + n / 0x40), tail 0]
  else if n < 0x10000 then [UInt8.ofNat (0xE0 + n / 0x1000), tail 6, tail 0]
  else [UInt8.ofNat (0xF0 + n / 0x40000), tail 12, tail 6, tail 0]

/-- **The bytes of a text.** -/
def encode (s : String) : List UInt8 := s.toList.flatMap encodeChar

/-- Why bytes are not UTF-8. -/
inductive Reason where
  /-- A byte that starts no character. -/
  | invalidStart
  /-- A byte that cannot continue the character begun before it. -/
  | invalidContinuation
  /-- The input ends inside a character. -/
  | unexpectedEnd
  deriving DecidableEq, Repr

/-- The words for a reason. -/
def Reason.text : Reason → String
  | .invalidStart => "invalid start byte"
  | .invalidContinuation => "invalid continuation byte"
  | .unexpectedEnd => "unexpected end of data"

/-- Bytes that are not UTF-8: where they start, their first byte, how many
they are and why. -/
structure Fault where
  /-- The offset of the first of the bytes. -/
  position : Nat
  /-- The first of the bytes. -/
  byte : UInt8
  /-- How many bytes belong to the fault. -/
  length : Nat
  /-- Why they are no character. -/
  reason : Reason
  deriving DecidableEq, Repr

/-- A character begun: where, with which byte, what its bytes give so far,
how many it has, how many it owes and the range of the next one. -/
structure Partial where
  /-- The offset of the first byte. -/
  position : Nat
  /-- The first byte. -/
  byte : UInt8
  /-- The bits read so far. -/
  code : Nat
  /-- The bytes read so far. -/
  length : Nat
  /-- The bytes owed. -/
  owed : Nat
  /-- The least value of the next byte. -/
  low : Nat
  /-- The greatest value of the next byte. -/
  high : Nat
  deriving DecidableEq, Repr

/-- What decoding finds: a character or a fault. -/
inductive Piece where
  /-- A character. -/
  | char (c : Char)
  /-- Bytes that are no character. -/
  | fault (f : Fault)
  deriving DecidableEq, Repr

/-- **The machine**: its offset, the character it is inside of, and the
pieces found, last first. -/
structure Machine where
  /-- The bytes read. -/
  position : Nat
  /-- The character begun and not finished. -/
  pending : Option Partial
  /-- The pieces found, the last one first. -/
  found : List Piece
  deriving DecidableEq, Repr

/-- The machine before the first byte. -/
def Machine.start : Machine := ⟨0, none, []⟩

/-- A first byte, from between characters. -/
def Machine.first (m : Machine) (b : UInt8) : Machine :=
  let n := b.toNat
  let begun (code owed low high : Nat) : Machine :=
    { m with position := m.position + 1, pending := some ⟨m.position, b, code, 1, owed, low, high⟩ }
  if n < 0x80 then
    { m with position := m.position + 1, found := .char (Char.ofNat n) :: m.found }
  else if n < 0xC2 then
    { m with
      position := m.position + 1
      found := .fault ⟨m.position, b, 1, .invalidStart⟩ :: m.found }
  else if n < 0xE0 then begun (n - 0xC0) 1 0x80 0xBF
  else if n = 0xE0 then begun 0 2 0xA0 0xBF
  else if n = 0xED then begun 0xD 2 0x80 0x9F
  else if n < 0xF0 then begun (n - 0xE0) 2 0x80 0xBF
  else if n = 0xF0 then begun 0 3 0x90 0xBF
  else if n < 0xF4 then begun (n - 0xF0) 3 0x80 0xBF
  else if n = 0xF4 then begun 4 3 0x80 0x8F
  else
    { m with
      position := m.position + 1
      found := .fault ⟨m.position, b, 1, .invalidStart⟩ :: m.found }

/-- One byte. -/
def Machine.step (m : Machine) (b : UInt8) : Machine :=
  match m.pending with
  | none => m.first b
  | some p =>
    if p.low ≤ b.toNat ∧ b.toNat ≤ p.high then
      let code := p.code * 0x40 + (b.toNat - 0x80)
      if p.owed = 1 then
        { position := m.position + 1, pending := none, found := .char (Char.ofNat code) :: m.found }
      else
        { m with
          position := m.position + 1
          pending := some { p with
            code := code, length := p.length + 1, owed := p.owed - 1, low := 0x80, high := 0xBF } }
    else
      Machine.first
        { m with
          pending := none
          found := .fault ⟨p.position, p.byte, p.length, .invalidContinuation⟩ :: m.found } b

/-- The pieces after the last byte, in order. -/
def Machine.finish (m : Machine) : List Piece :=
  match m.pending with
  | none => m.found.reverse
  | some p => (.fault ⟨p.position, p.byte, p.length, .unexpectedEnd⟩ :: m.found).reverse

/-- **The characters and faults of a byte string**, in order. -/
def pieces (bytes : List UInt8) : List Piece := (bytes.foldl Machine.step Machine.start).finish

/-- The characters of a list of pieces, or its first fault. -/
def charsOf : List Piece → Except Fault (List Char)
  | [] => .ok []
  | .char c :: rest => (charsOf rest).map (c :: ·)
  | .fault f :: _ => .error f

/-- **The text of a byte string**, or the first fault in it. -/
def decode (bytes : List UInt8) : Except Fault String :=
  (charsOf (pieces bytes)).map String.ofList

/-- The text of a byte string with U+FFFD for every fault. -/
def decodeLossy (bytes : List UInt8) : String :=
  String.ofList ((pieces bytes).map fun
    | .char c => c
    | .fault _ => '\uFFFD')

end RangeReader.Text.Utf8

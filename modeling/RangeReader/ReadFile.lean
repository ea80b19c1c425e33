import RangeReader.Channel.Read

/-!
# A channel as a file

A file for programs that expect one: it can be read, in pieces and by lines,
and moved, but not written. The size of the object is not known, so it cannot
be moved relative to the end.

A file has a flag of its own for being closed, which only lists of lines and
`within` look at; a read of a closed file is refused by its channel. Reading
bytes reads the channel once, reading everything reads it until it ends, and
reading a line takes one byte at a time.
-/

namespace RangeReader

/-- **A file** over a channel. -/
structure ReadFile where
  /-- The channel it reads. -/
  channel : Channel
  /-- Whether the file was closed. -/
  isClosed : Bool

/-- The number of bytes that one read of a whole file asks for. -/
def fileChunkSize : Nat := 8192

namespace ReadFile

variable {σ : Type}

/-- An open file over a channel. -/
def ofChannel (c : Channel) : ReadFile := ⟨c, false⟩

/-- Whether the file can be read. -/
def isReadable (f : ReadFile) : Bool := f.channel.isOpen

/-- Whether the file can be moved. -/
def isSeekable (f : ReadFile) : Bool := f.channel.isOpen

/-- No file can be written. -/
def isWritable (_ : ReadFile) : Bool := false

/-- Refuses a closed file. -/
def checkOpen (f : ReadFile) : Except Fault Unit :=
  if f.isClosed then .error .closedFile else .ok ()

/-- The result of a step of the channel, with the file around it. -/
def lift {α : Type} (f : ReadFile) (r : Except Fault α × Channel × σ) :
    Except Fault α × ReadFile × σ :=
  (r.1, { f with channel := r.2.1 }, r.2.2)

/-! ## Bytes -/

/-- What a file gives for a delivery: nothing at the end. -/
def dataOf : Delivery → Except Fault (List UInt8)
  | .bytes data => .ok data
  | .ended => .ok []
  | .failed fault => .error fault

/-- **Reads into room for `capacity` bytes**; nothing at the end. -/
def readInto (source : Source σ) (capacity : Nat) (f : ReadFile) (s : σ) :
    Except Fault (List UInt8) × ReadFile × σ :=
  let (delivery, c, s) := f.channel.readInto source capacity s
  f.lift (dataOf delivery, c, s)

/-- **Reads everything up to the end.** -/
def readAll (source : Source σ) (f : ReadFile) (s : σ) :
    Except Fault (List UInt8) × ReadFile × σ :=
  f.lift (f.channel.drain source fileChunkSize (by decide) [] s)

/-- **Reads up to `size` bytes** in one read of the channel; everything where
`size` is negative. -/
def read (source : Source σ) (size : Int) (f : ReadFile) (s : σ) :
    Except Fault (List UInt8) × ReadFile × σ :=
  if size < 0 then f.readAll source s else f.readInto source size.toNat s

/-! ## Lines -/

/-- The byte that ends a line. -/
def newline : UInt8 := 10

/-- Reads a line of a channel byte by byte, of at most `bound` bytes where
there is a bound. The bytes before are given last first. -/
def lineFrom (source : Source σ) (bound : Option Nat) (before : List UInt8) (c : Channel)
    (s : σ) : Except Fault (List UInt8) × Channel × σ :=
  if bound = some 0 then (.ok before.reverse, c, s)
  else
    match h : c.readInto source 1 s with
    | (.bytes data, after, s') =>
      have := (Channel.readInto_bytes Nat.one_pos h).room_lt Nat.one_pos
      if data = [newline] then (.ok (newline :: before).reverse, after, s')
      else lineFrom source (bound.map (· - 1)) (data ++ before) after s'
    | (.ended, after, s') => (.ok before.reverse, after, s')
    | (.failed fault, after, s') => (.error fault, after, s')
termination_by c.limit - c.pointer

/-- What a line read has done: the limit is as it was, and the pointer moved
by the bytes that are new in the line, not past the limit. -/
theorem lineFrom_ok {source : Source σ} {bound : Option Nat} {before line : List UInt8}
    {c after : Channel} {s s' : σ}
    (h : lineFrom source bound before c s = (.ok line, after, s')) :
    after.limit = c.limit ∧ after.pointer + before.length = c.pointer + line.length
      ∧ (before.length < line.length → after.pointer ≤ after.limit) := by
  fun_induction lineFrom source bound before c s with
  | case1 before c s =>
    simp only [Prod.mk.injEq, Except.ok.injEq] at h
    obtain ⟨rfl, rfl, _⟩ := h
    simp
  | case2 bound before c s hb after' s'' hd =>
    simp only [Prod.mk.injEq, Except.ok.injEq] at h
    obtain ⟨rfl, rfl, _⟩ := h
    have step := Channel.readInto_bytes Nat.one_pos hd
    have := step.pointer_eq
    refine ⟨step.limit_eq, ?_, fun _ => step.pointer_le⟩
    simp only [List.length_reverse, List.length_cons, List.length_nil] at *
    omega
  | case3 bound before c s hb data after' s'' hd _ hn ih =>
    obtain ⟨hl, hp, hle⟩ := ih h
    have step := Channel.readInto_bytes Nat.one_pos hd
    have := step.pointer_eq
    have := step.limit_eq
    have := step.pointer_le
    rw [List.length_append] at hp hle
    refine ⟨by omega, by omega, fun _ => ?_⟩
    by_cases hm : data.length + before.length < line.length
    · exact hle hm
    · omega
  | case4 bound before c s hb after' s'' hd =>
    simp only [Prod.mk.injEq, Except.ok.injEq] at h
    obtain ⟨rfl, rfl, _⟩ := h
    obtain ⟨hl, hp⟩ := Channel.readInto_ended hd
    refine ⟨hl, ?_, fun hm => ?_⟩
    · rw [List.length_reverse, hp]
    · rw [List.length_reverse] at hm
      omega
  | case5 => simp at h

/-- **Reads a line**, with the byte that ends it; nothing at the end. A bound
that is negative is none. -/
def readLine (source : Source σ) (bound : Int) (f : ReadFile) (s : σ) :
    Except Fault (List UInt8) × ReadFile × σ :=
  f.lift (lineFrom source (if bound < 0 then none else some bound.toNat) [] f.channel s)

/-- **The next line** with all of its bytes; none at the end. -/
def next? (source : Source σ) (f : ReadFile) (s : σ) :
    Except Fault (Option (List UInt8)) × ReadFile × σ :=
  let (line, f, s) := f.readLine source (-1) s
  (line.map fun line => if line.isEmpty then none else some line, f, s)

/-- Reads lines to the end, or until they have more bytes than a budget where
there is one. The lines before are given last first. -/
def linesFrom (source : Source σ) (budget : Option Nat) (before : List (List UInt8))
    (c : Channel) (s : σ) : Except Fault (List (List UInt8)) × Channel × σ :=
  match h : lineFrom source none [] c s with
  | (.error fault, after, s') => (.error fault, after, s')
  | (.ok line, after, s') =>
    if hn : line = [] then (.ok before.reverse, after, s')
    else if budget.any (· < line.length) then (.ok (line :: before).reverse, after, s')
    else
      have : after.limit - after.pointer < c.limit - c.pointer := by
        obtain ⟨hl, hp, hle⟩ := lineFrom_ok h
        have := List.length_pos_iff.2 hn
        have := hle this
        simp only [List.length_nil] at hp
        omega
      linesFrom source (budget.map (· - line.length)) (line :: before) after s'
termination_by c.limit - c.pointer

/-- **Reads lines**: all of them, or where `hint` is positive those up to the
one that makes them longer than that. -/
def readLines (source : Source σ) (hint : Int) (f : ReadFile) (s : σ) :
    Except Fault (List (List UInt8)) × ReadFile × σ :=
  match f.checkOpen with
  | .error fault => (.error fault, f, s)
  | .ok _ => f.lift (linesFrom source (if hint ≤ 0 then none else some hint.toNat) [] f.channel s)

/-! ## Position -/

/-- The position of the file. -/
def tell (f : ReadFile) : Except Fault Nat := f.channel.tell

/-- The place at a distance from another. A distance that is a double makes it a
double, if the place can be one. -/
def placeAt (distance : Value) (place : Nat) : Except Fault Value :=
  match distance with
  | .float x =>
    let start := Binary64.ofInt place
    match start.truncated? with
    | some _ => .ok (.float (start.add x))
    | none => .error .unrepresentable
  | distance =>
    match distance.asInt? with
    | some n => .ok (.int (place + n))
    | none => .error .mistyped

/-- The target of a move: `offset` itself, or relative to the position of
the file. -/
def target (f : ReadFile) (offset : Value) (whence : Int) : Except Fault Value :=
  if whence = 0 then .ok offset
  else if whence = 1 then f.tell >>= placeAt offset
  else if whence = 2 then .error (.unsupported "Seeking relative to the end of an object")
  else .error (.unknownWhence whence)

/-- **Moves the file** by an offset from its start (`whence` 0) or from its
position (1), and gives the new position. -/
def seek (source : Source σ) (offset : Value) (whence : Int) (f : ReadFile) (s : σ) :
    Except Fault Nat × ReadFile × σ :=
  match f.target offset whence with
  | .error fault => (.error fault, f, s)
  | .ok target =>
    match f.channel.seek source target s with
    | (.error fault, c, s) => (.error fault, { f with channel := c }, s)
    | (.ok _, c, s) => (.ok c.pointer, { f with channel := c }, s)

/-- A file cannot be cut. -/
def truncate (_ : ReadFile) : Except Fault Unit := .error (.unsupported "truncate")

/-- A file has no descriptor. -/
def fileDescriptor (_ : ReadFile) : Except Fault Unit := .error (.unsupported "fileno")

/-! ## Closing -/

/-- **Closes the file and its channel.** -/
def close (f : ReadFile) : ReadFile := ⟨f.channel.close, true⟩

/-- **An action on an open file that is closed afterwards**, also when the
action fails. -/
def within {α : Type} (action : ReadFile → σ → Except Fault α × ReadFile × σ) (f : ReadFile)
    (s : σ) : Except Fault α × ReadFile × σ :=
  match f.checkOpen with
  | .error fault => (.error fault, f, s)
  | .ok _ =>
    let (result, f, s) := action f s
    (result, f.close, s)

end ReadFile

end RangeReader

import RangeReader.Source

/-!
# Channels

A channel reads one object from a source, chunk by chunk. It remembers the
offset at which the present chunk starts, how much of the chunk it has
served and the bytes still unread; there is a chunk only while bytes of it
are unread. `tell` is the offset of the next byte it will serve.

Three more things decide what a read gives. The *limit* is an offset that no
byte is served at or beyond. *Ended* says that the end of the object or the
limit was reached; it stays so until the channel is moved. A *modification*
is a change of the object noticed between two fetches: the tags expected and
found. It too stays until the channel is moved.

This module has the state and everything that changes it without reading.
-/

namespace RangeReader

/-- The number of bytes a fetch asks for at least, where nothing else is
said. -/
def defaultChunkSize : Nat := 2 * 1024 * 1024

/-- The limit of a channel that has none: the largest offset a signed word
holds. -/
def unboundedLimit : Nat := 0x7fffffffffffffff

/-- A change of the object noticed between two fetches. -/
structure Modification where
  /-- The tag of the content read before. -/
  expected : Option String
  /-- The tag of the content found. -/
  actual : Option String
  deriving DecidableEq, Repr

/-- **A channel.** -/
structure Channel where
  /-- The object it reads. -/
  object : ObjectId
  /-- The object as requests describe it. -/
  descriptor : ObjectRecord
  /-- The options of every request. -/
  options : List ReadOption
  /-- The offset at which the present chunk starts, or the next one will. -/
  position : Nat
  /-- How many bytes of the present chunk have been served. -/
  served : Nat
  /-- The bytes of the present chunk that have not; empty without a chunk. -/
  unread : List UInt8
  /-- Whether it is open. -/
  isOpen : Bool
  /-- Whether the end was reached. -/
  ended : Bool
  /-- The number of bytes a fetch asks for at least, unless the limit is
  nearer. -/
  chunkSize : Nat
  /-- The offset that no byte is served at or beyond. -/
  limit : Nat
  /-- The tag of the content fetched last. -/
  lastEtag : Option String
  /-- The change of the object that was noticed. -/
  modification : Option Modification
  chunkSize_pos : 0 < chunkSize

namespace Channel

/-- **A channel at the start of an object**; refused for an identity that
requests cannot describe. -/
def opened (object : ObjectId) (options : List ReadOption) : Except Fault Channel :=
  match ObjectRecord.ofObjectId object with
  | .error faults => .error (.badRecord faults)
  | .ok descriptor => .ok {
      object := object
      descriptor := descriptor
      options := options
      position := 0
      served := 0
      unread := []
      isOpen := true
      ended := false
      chunkSize := defaultChunkSize
      limit := unboundedLimit
      lastEtag := none
      modification := none
      chunkSize_pos := by decide }

/-- **The offset of the next byte**, whether the channel is open or not. -/
def pointer (c : Channel) : Nat := c.position + c.served

/-- **What a channel just opened is.** -/
structure IsFresh (object : ObjectId) (options : List ReadOption) (c : Channel) : Prop where
  object_eq : c.object = object
  options_eq : c.options = options
  pointer_eq : c.pointer = 0
  unread_eq : c.unread = []
  isOpen : c.isOpen = true
  not_ended : c.ended = false
  chunkSize_eq : c.chunkSize = defaultChunkSize
  limit_eq : c.limit = unboundedLimit
  lastEtag_eq : c.lastEtag = none
  unmodified : c.modification = none

theorem isFresh_of_opened {object : ObjectId} {options : List ReadOption} {c : Channel}
    (h : opened object options = .ok c) : c.IsFresh object options := by
  unfold opened at h
  split at h
  · cases h
  · cases h
    exact ⟨rfl, rfl, rfl, rfl, rfl, rfl, rfl, rfl, rfl, rfl⟩

/-- The fault of an operation on a closed channel. -/
def closedFault : Fault := .closedChannel none

/-- Refuses the operations of a closed channel. -/
def checkOpen (isOpen : Bool) : Except Fault Unit :=
  if isOpen then .ok () else .error closedFault

/-- The offset of the next byte of an open channel. -/
def tell (c : Channel) : Except Fault Nat := (checkOpen c.isOpen).map fun _ => c.pointer

theorem tell_open {c : Channel} (ho : c.isOpen = true) : c.tell = .ok c.pointer := by
  unfold tell checkOpen
  rw [ho]
  rfl

/-- The integer that a value is, where a bound is asked for. -/
def bound (what : Bound) : Value → Except Fault Nat
  | .int n =>
    if n < 0 then .error (.invalidArgument (.negative what n)) else .ok n.toNat
  | v => .error (.invalidArgument (.notInteger what v))

/-- A bound that is a natural number is taken as it is. -/
theorem bound_natCast (what : Bound) (n : Nat) : bound what (.int n) = .ok n := by
  show (if (n : Int) < 0 then Except.error (.invalidArgument (.negative what n))
    else Except.ok (n : Int).toNat) = _
  rw [if_neg (by omega)]
  rfl

/-- A channel without its chunk. -/
def dropChunk (c : Channel) : Channel := { c with served := 0, unread := [] }

/-- A channel moved to an offset. What was noticed before – the end, or a
change of the object – is forgotten; the tag of the content is not. -/
def movedTo (c : Channel) (position : Nat) : Channel :=
  { c.dropChunk with position := position, ended := false, modification := none }

/-- **Moves an open channel.** -/
def seek {σ : Type} (source : Source σ) (target : Value) (c : Channel) (s : σ) :
    Except Fault Unit × Channel × σ :=
  match checkOpen c.isOpen, bound .position target with
  | .error fault, _ => (.error fault, c, s)
  | .ok _, .error fault => (.error fault, c, s)
  | .ok _, .ok position =>
    (.ok (), c.movedTo position, source.note (.seeking c.object.text position) s)

theorem seek_open {σ : Type} (source : Source σ) {c : Channel} (ho : c.isOpen = true)
    (target : Value) (s : σ) :
    c.seek source target s = match bound .position target with
      | .error fault => (.error fault, c, s)
      | .ok position =>
        (.ok (), c.movedTo position, source.note (.seeking c.object.text position) s) := by
  unfold seek
  rw [ho]
  cases bound .position target <;> rfl

theorem seek_natCast {σ : Type} (source : Source σ) {c : Channel} (ho : c.isOpen = true)
    (position : Nat) (s : σ) :
    c.seek source (.int position) s
      = (.ok (), c.movedTo position, source.note (.seeking c.object.text position) s) := by
  rw [seek_open source ho, bound_natCast]

/-- **Sets the limit**, of a closed channel too. -/
def setLimit (target : Value) (c : Channel) : Except Fault Channel :=
  (bound .limit target).map fun limit => { c with limit := limit }

theorem setLimit_natCast (c : Channel) (limit : Nat) :
    c.setLimit (.int limit) = .ok { c with limit := limit } := by
  unfold setLimit
  rw [bound_natCast]
  rfl

/-- The size of chunks that an integer asks for: the default where it is not
positive. -/
def chunkSizeOf (n : Int) : Nat := if n ≤ 0 then defaultChunkSize else n.toNat

theorem chunkSizeOf_pos (n : Int) : 0 < chunkSizeOf n := by
  unfold chunkSizeOf defaultChunkSize
  split <;> omega

/-- **Sets the size of chunks**, of a closed channel too. -/
def setChunkSize (n : Int) (c : Channel) : Channel :=
  { c with chunkSize := chunkSizeOf n, chunkSize_pos := chunkSizeOf_pos n }

/-- **Closes a channel**, which loses its chunk. -/
def close (c : Channel) : Channel := if c.isOpen then { c.dropChunk with isOpen := false } else c

/-- A channel as text. -/
def text (c : Channel) : String :=
  "BlobReadChannel(blob=" ++ c.object.text ++ ", position=" ++ toString c.position
    ++ ", is_open=" ++ (Value.bool c.isOpen).shown
    ++ ", end_of_stream=" ++ (Value.bool c.ended).shown
    ++ ", limit=" ++ toString c.limit ++ ")"

/-! ## Sizes as values -/

/-- **The size of chunks that a value asks for**: the default for a number
that is not positive. A value that is not a number is refused. -/
def normalChunkSize (v : Value) : Except Fault Value :=
  let standard := Value.int defaultChunkSize
  match v with
  | .bool b => .ok (if b then v else standard)
  | .int n => .ok (if n ≤ 0 then standard else v)
  | .float x =>
    .ok (match x.compareInt? 0 with
      | some .gt => v
      | none => v
      | _ => standard)
  | _ => .error .mistyped

end Channel

end RangeReader

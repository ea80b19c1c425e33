import RangeReader.Channel.Read
import RangeReader.ReadFile

/-!
# Remote objects

A remote object is an identity with what is known of its metadata. It is read
through channels, each with options of its own: conditions given without a
value are bound to the generation and the metageneration of the object when
the channel is opened. Reading the whole content and copying it to a sink are
loops over such a channel.
-/

namespace RangeReader

namespace Channel

/-- Copies what is left to a sink, with room for `capacity` bytes each time,
and counts the bytes. What was written before a fault stays written. -/
def copy {σ τ : Type} (source : Source σ) (write : List UInt8 → τ → τ) (capacity : Nat)
    (hc : 0 < capacity) (count : Nat) (sink : τ) (c : Channel) (s : σ) :
    Except Fault Nat × τ × Channel × σ :=
  match h : c.readInto source capacity s with
  | (.bytes data, after, s') =>
    have := (readInto_bytes hc h).room_lt hc
    after.copy source write capacity hc (count + data.length) (write data sink) s'
  | (.ended, after, s') => (.ok count, sink, after, s')
  | (.failed fault, after, s') => (.error fault, sink, after, s')
termination_by c.limit - c.pointer

end Channel

/-- **A remote object.** -/
structure RemoteObject where
  /-- The object. -/
  object : ObjectId
  /-- The generation of its metadata; null where it is not known. -/
  metageneration : Value

namespace RemoteObject

variable {σ τ : Type}

/-- The remote object of a record. -/
def ofRecord (r : ObjectRecord) : Except Fault RemoteObject :=
  match r.toObjectId with
  | .error fault => .error (.ofIdentity fault)
  | .ok object => .ok ⟨object, r.metageneration.elim .null .int⟩

/-- **A channel at the start of the object**, its options resolved. -/
def reader (o : RemoteObject) (options : List ReadOption) : Except Fault Channel :=
  match ReadOption.resolve options o.object.generation o.metageneration with
  | .error kind => .error (.invalidArgument (.unresolved kind))
  | .ok resolved => Channel.opened o.object resolved

/-- The channel is one just opened. -/
theorem opened_of_reader {o : RemoteObject} {options : List ReadOption} {c : Channel}
    (h : o.reader options = .ok c) : ∃ resolved, Channel.opened o.object resolved = .ok c := by
  unfold reader at h
  split at h
  · cases h
  · exact ⟨_, h⟩

/-- A file over a channel at the start of the object. -/
def asFile (o : RemoteObject) (options : List ReadOption) : Except Fault ReadFile :=
  (o.reader options).map ReadFile.ofChannel

/-- **The whole content.** -/
def content (source : Source σ) (options : List ReadOption) (o : RemoteObject) (s : σ) :
    Except Fault (List UInt8) × σ :=
  match o.reader options with
  | .error fault => (.error fault, s)
  | .ok c =>
    let (result, _, s) := c.readAndClose source (-1) s
    (result, s)

/-- **Copies the whole content to a sink**, and says so under the name of
the destination once it is there. -/
def download (source : Source σ) (options : List ReadOption) (write : List UInt8 → τ → τ)
    (destination : String) (o : RemoteObject) (sink : τ) (s : σ) : Except Fault Nat × τ × σ :=
  match o.reader options with
  | .error fault => (.error fault, sink, s)
  | .ok c =>
    match c.copy source write c.chunkSize c.chunkSize_pos 0 sink s with
    | (.error fault, sink, _, s) => (.error fault, sink, s)
    | (.ok count, sink, _, s) =>
      (.ok count, sink, source.note (.downloaded o.object.text count destination) s)

/-- A remote object as text. -/
def text (o : RemoteObject) : String := "Blob(" ++ o.object.text ++ ")"

end RemoteObject

end RangeReader

import RangeReader.Channel.Read

/-!
# Operations of a channel

A reader uses a channel by a sequence of operations, each of which has an
outcome and leaves the channel in a state for the next one. An operation that
fails is an outcome like any other: the sequence goes on.
-/

namespace RangeReader

/-- **What a reader can ask of a channel.** -/
inductive Operation where
  /-- To read into room for `capacity` bytes. -/
  | readInto (capacity : Nat)
  /-- To read `size` bytes, or everything where `size` is negative. -/
  | read (size : Int)
  /-- To read `size` bytes and to close. -/
  | readAndClose (size : Int)
  /-- To move. -/
  | seek (target : Value)
  /-- To set the limit. -/
  | setLimit (target : Value)
  /-- To set the size of chunks. -/
  | setChunkSize (n : Int)
  /-- To say where it is. -/
  | tell
  /-- To close. -/
  | close

/-- **What comes of an operation.** -/
inductive Outcome where
  /-- One read of the channel: bytes, or the end. -/
  | delivered (delivery : Delivery)
  /-- The bytes read. -/
  | data (bytes : List UInt8)
  /-- An offset. -/
  | offset (n : Nat)
  /-- Nothing to say. -/
  | done
  /-- The operation failed. -/
  | failed (fault : Fault)

/-- The outcome of a result, given what a success is. -/
def Outcome.ofResult {α : Type} (success : α → Outcome) : Except Fault α → Outcome
  | .ok x => success x
  | .error fault => .failed fault

namespace Channel

variable {σ : Type}

/-- **Performs an operation.** -/
def perform (source : Source σ) (op : Operation) (c : Channel) (s : σ) :
    Outcome × Channel × σ :=
  match op with
  | .readInto capacity =>
    match c.readInto source capacity s with
    | (.failed fault, c, s) => (.failed fault, c, s)
    | (delivery, c, s) => (.delivered delivery, c, s)
  | .read size =>
    let (result, c, s) := c.read source size s
    (.ofResult .data result, c, s)
  | .readAndClose size =>
    let (result, c, s) := c.readAndClose source size s
    (.ofResult .data result, c, s)
  | .seek target =>
    let (result, c, s) := c.seek source target s
    (.ofResult (fun _ => .done) result, c, s)
  | .setLimit target =>
    match c.setLimit target with
    | .ok c => (.done, c, s)
    | .error fault => (.failed fault, c, s)
  | .setChunkSize n => (.done, c.setChunkSize n, s)
  | .tell => (.ofResult .offset c.tell, c, s)
  | .close => (.done, c.close, s)

/-- **Performs operations one after the other**, and lists what comes of
them. -/
def performAll (source : Source σ) : List Operation → Channel → σ →
    List Outcome × Channel × σ
  | [], c, s => ([], c, s)
  | op :: ops, c, s =>
    let (outcome, c, s) := c.perform source op s
    let (outcomes, c, s) := performAll source ops c s
    (outcome :: outcomes, c, s)

end Channel

end RangeReader

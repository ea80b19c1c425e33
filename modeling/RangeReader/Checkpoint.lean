import RangeReader.Channel.Basic
import RangeReader.MessagePack.Read
import RangeReader.MessagePack.Write

/-!
# Checkpoints

A checkpoint is where a read can be taken up again: what is needed to build
a channel like the one it was taken from, over any source. It never holds
fetched bytes. Its position is that of the first byte not yet served, so the
new channel fetches again what the old one had fetched and not served, and
for the same reason it is not at the end while such bytes were there.

Checkpoints travel as *tokens*: a MessagePack map of ten fields. A checkpoint
is data that anyone may have written, so its fields are values as they stand;
`restore` is where they are checked. Writing a token checks nothing but that
there is room for the integers, the sizes and the depth. Reading one is strict
about the kinds of its fields, passes over fields it does not know, takes the
last of equal fields, and checks the rest in a fixed order: the names of the
options, the position, the limit, the identity of the object.
-/

namespace RangeReader

/-- **A checkpoint.** -/
structure Checkpoint where
  /-- The object being read. -/
  object : ObjectId
  /-- The options of every request. -/
  options : List ReadOption
  /-- The offset of the first byte not served. -/
  position : Value
  /-- Whether the channel was open. -/
  isOpen : Value
  /-- Whether it had reached the end. -/
  ended : Value
  /-- The size of its chunks. -/
  chunkSize : Value
  /-- Its limit. -/
  limit : Value
  /-- The tag of the content it fetched last. -/
  lastEtag : Value

/-- A tag as a value: null where there is none. -/
def etagValue : Option String → Value
  | some s => .text s
  | none => .null

/-- **How deeply items may be nested.** The program that runs a reader or a writer
bounds the depth to which they go, and has part of it in use when it calls them.
What is left is not the same everywhere, but it is enough for a token: four
levels, and so many more for what the values of options hold. -/
class Nesting where
  /-- The number of levels besides those of a token. -/
  spare : Nat

/-- The usual depth. -/
instance (priority := low) usualNesting : Nesting := ⟨996⟩

namespace Checkpoint

/-- The checkpoint at the start of an object. -/
def atStart (object : ObjectId) (options : List ReadOption) : Checkpoint where
  object := object
  options := options
  position := .int 0
  isOpen := .bool true
  ended := .bool false
  chunkSize := .int defaultChunkSize
  limit := .int unboundedLimit
  lastEtag := .null

/-- **The checkpoint of a channel.** -/
def capture (c : Channel) : Checkpoint where
  object := c.object
  options := c.options
  position := .int c.pointer
  isOpen := .bool c.isOpen
  ended := .bool (c.ended && c.unread.isEmpty)
  chunkSize := .int c.chunkSize
  limit := .int c.limit
  lastEtag := etagValue c.lastEtag

/-- **A channel that takes up the read.** Nothing is fetched. -/
def restore (p : Checkpoint) : Except Fault Channel := do
  let position ← Channel.bound .position p.position
  let limit ← Channel.bound .limit p.limit
  let c ← Channel.opened p.object p.options
  let chunkSize ← match p.chunkSize.asInt? with
    | some n => pure n
    | none => throw .mistyped
  let lastEtag ← match p.lastEtag with
    | .null => pure none
    | .text s => pure (some s)
    | _ => throw .mistyped
  return { c.setChunkSize chunkSize with
    position := position
    isOpen := p.isOpen.truthy
    ended := p.ended.truthy
    limit := limit
    lastEtag := lastEtag }

/-! ## Equality -/

/-- Whether two lists of options are equal. -/
def sameOptions (xs ys : List ReadOption) : Bool :=
  xs.length == ys.length && (xs.zip ys).all fun (x, y) => x.same y

/-- The fields of a checkpoint besides its object and options. -/
def scalars (p : Checkpoint) : List Value :=
  [p.position, p.isOpen, p.ended, p.chunkSize, p.limit, p.lastEtag]

/-- **Whether two checkpoints are equal.** -/
def same (p q : Checkpoint) : Bool :=
  p.object.same q.object && sameOptions p.options q.options
    && (p.scalars.zip q.scalars).all fun (x, y) => x.same y

/-- Whether a checkpoint can be hashed: all of its values must be. -/
def isHashable (p : Checkpoint) : Bool :=
  p.object.generation.isHashable && p.options.all (·.value.isHashable)
    && p.scalars.all Value.isHashable

/-! ## Tokens -/

/-- **The fields of a token.** -/
inductive Field where
  | bucket
  | name
  | generation
  | options
  | position
  | isOpen
  | ended
  | chunkSize
  | limit
  | lastEtag
  deriving DecidableEq, Repr

/-- The fields, in order. -/
def Field.all : List Field :=
  [.bucket, .name, .generation, .options, .position, .isOpen, .ended, .chunkSize, .limit,
    .lastEtag]

/-- The key of a field. -/
def Field.key : Field → String
  | .bucket => "bucket"
  | .name => "name"
  | .generation => "generation"
  | .options => "request_options"
  | .position => "position"
  | .isOpen => "is_open"
  | .ended => "end_of_stream"
  | .chunkSize => "chunk_size"
  | .limit => "limit"
  | .lastEtag => "last_etag"

/-- The value of a field. -/
def fieldValue (p : Checkpoint) : Field → Value
  | .bucket => .text p.object.bucket
  | .name => .text p.object.name
  | .generation => p.object.generation
  | .options => .list (p.options.map fun o => .list [.text o.kind.wireName, o.value])
  | .position => p.position
  | .isOpen => p.isOpen
  | .ended => p.ended
  | .chunkSize => p.chunkSize
  | .limit => p.limit
  | .lastEtag => p.lastEtag

/-- The greatest depth to which items of a token are nested. -/
def nestingLimit [Nesting] : Nat := Nesting.spare + 4

/-- The value of a token with given values of its fields. -/
def tokenValue (value : Field → Value) : Value :=
  .map (Field.all.map fun field => (.text field.key, value field))

/-- The fault of what there is no room for. -/
def roomFault : MessagePack.NoRoom → Fault
  | .integer _ => .unrepresentable
  | .size what _ =>
    .foreign (.program .value) (some ("Can't encode " ++ what.words ++ " longer than 2**32 - 1"))
  | .tooDeep => .tooDeep

/-- **The token with given values of its fields**; refused where there is no room
for an integer, a size or the depth. -/
def tokenOf [Nesting] (value : Field → Value) : Except Fault (List UInt8) :=
  (MessagePack.writeValue nestingLimit (tokenValue value)).mapError roomFault

/-- **The token of a checkpoint.** -/
def token [Nesting] (p : Checkpoint) : Except Fault (List UInt8) := tokenOf p.fieldValue

/-! ## Reading a token -/

/-- The field of a key, which is compared as bytes. -/
def Field.ofKey? (key : List UInt8) : Option Field :=
  Field.all.find? fun field => Text.Utf8.encode field.key == key

/-- The fields of a token that have been read. -/
structure Fields where
  /-- The bucket. -/
  bucket : Option String := none
  /-- The name. -/
  name : Option String := none
  /-- The generation. -/
  generation : Option (Option Int) := none
  /-- The options, by their names. -/
  options : Option (List (String × Value)) := none
  /-- The position. -/
  position : Option Int := none
  /-- Whether the channel was open. -/
  isOpen : Option Bool := none
  /-- Whether it had reached the end. -/
  ended : Option Bool := none
  /-- The size of chunks. -/
  chunkSize : Option Int := none
  /-- The limit. -/
  limit : Option Int := none
  /-- The tag. -/
  lastEtag : Option (Option String) := none

open MessagePack in
/-- An option: its name and its value. -/
def readOption [Nesting] (place : Place) : Reader (String × Value) := do
  let count ← readListHead place
  if count ≠ 2 then throw (.pairLength count place)
  let name ← readText (place ++ [.item 0])
  let value ← readValue (nestingLimit - 3) (place ++ [.item 1])
  return (name, value)

open MessagePack in
/-- The options. -/
def readOptions [Nesting] (place : Place) : Reader (List (String × Value)) := do
  let count ← readListHead place
  collect (fun i => readOption (place ++ [.item i])) count 0 []

open MessagePack in
/-- A field, put with those read before it. -/
def readField [Nesting] (fields : Fields) (field : Field) : Reader Fields := do
  let place : Place := [.field field.key]
  match field with
  | .bucket => return { fields with bucket := some (← readText place) }
  | .name => return { fields with name := some (← readText place) }
  | .generation => return { fields with generation := some (← readInt? place) }
  | .options => return { fields with options := some (← readOptions place) }
  | .position => return { fields with position := some (← readInt place) }
  | .isOpen => return { fields with isOpen := some (← readBool place) }
  | .ended => return { fields with ended := some (← readBool place) }
  | .chunkSize => return { fields with chunkSize := some (← readInt place) }
  | .limit => return { fields with limit := some (← readInt place) }
  | .lastEtag => return { fields with lastEtag := some (← readText? place) }

open MessagePack in
/-- As many entries of a token as are left. -/
def readFields [Nesting] : Nat → Fields → Reader Fields
  | 0, fields => return fields
  | left + 1, fields => do
    match Field.ofKey? (← readKey) with
    | some field => readFields left (← readField fields field)
    | none =>
      skipValue (nestingLimit - 1)
      readFields left fields

/-- What a token holds, all fields being there. -/
structure Content where
  /-- The bucket. -/
  bucket : String
  /-- The name. -/
  name : String
  /-- The generation. -/
  generation : Option Int
  /-- The options, by their names. -/
  options : List (String × Value)
  /-- The position. -/
  position : Int
  /-- Whether the channel was open. -/
  isOpen : Bool
  /-- Whether it had reached the end. -/
  ended : Bool
  /-- The size of chunks. -/
  chunkSize : Int
  /-- The limit. -/
  limit : Int
  /-- The tag. -/
  lastEtag : Option String

open MessagePack in
/-- A field that must have been read. -/
def need {α : Type} (field : Field) : Option α → Reader α
  | some x => return x
  | none => throw (.missingField field.key)

open MessagePack in
/-- **What a token holds.** -/
def readContent [Nesting] : Reader Content := do
  let fields ← readFields (← readMapHead []) {}
  return {
    bucket := ← need .bucket fields.bucket
    name := ← need .name fields.name
    generation := ← need .generation fields.generation
    options := ← need .options fields.options
    position := ← need .position fields.position
    isOpen := ← need .isOpen fields.isOpen
    ended := ← need .ended fields.ended
    chunkSize := ← need .chunkSize fields.chunkSize
    limit := ← need .limit fields.limit
    lastEtag := ← need .lastEtag fields.lastEtag }

/-- The fault of bytes that are no token. Items nested too deeply are not a
fault of the format. -/
def formatFault : MessagePack.Fault → Fault
  | .tooDeep => .tooDeep
  | fault => .invalidArgument (.token (.format fault))

/-- The kind of option of a name. -/
def namedKind (name : String) : Except Fault OptionKind :=
  match OptionKind.ofWireName? name with
  | some kind => .ok kind
  | none => .error (.invalidArgument (.token (.unknownOption name)))

/-- **The checkpoint of a token.** -/
def ofToken [Nesting] (token : List UInt8) : Except Fault Checkpoint := do
  let content ← (readContent.run token).mapError formatFault
  let kinds ← content.options.mapM fun o => namedKind o.1
  let position ← Channel.bound .position (.int content.position)
  let limit ← Channel.bound .limit (.int content.limit)
  let object ← (ObjectId.make content.bucket content.name
    (content.generation.elim .null .int)).mapError Fault.ofIdentity
  return {
    object := object
    options := (kinds.zip content.options).map fun (kind, o) => ⟨kind, o.2⟩
    position := .int position
    isOpen := .bool content.isOpen
    ended := .bool content.ended
    chunkSize := .int content.chunkSize
    limit := .int limit
    lastEtag := etagValue content.lastEtag }

end Checkpoint

end RangeReader

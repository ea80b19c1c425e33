import RangeReader.MessagePack.Fault
import RangeReader.Value.Basic

/-!
# Reading MessagePack bytes

A reader goes over the bytes once, from the first to the last. It first
reads the *head* of an item – its opcode with the number or the size that
follows – and then what the head announces. Any form is accepted, not only
the shortest one.

`readValue` reads an item as a value, whatever its kind. `readText` and its
companions read an item that must be of one kind, and say what they found
where it is not. A text, a byte string and an extension are taken whole before
their kind is looked at, so bytes that end inside one are reported as truncated
first; for every other item the kind is looked at as soon as its head is known.
-/

namespace RangeReader.MessagePack

/-- Where a reader stands: how many bytes it has read, and those to come. -/
structure Cursor where
  /-- The bytes read. -/
  offset : Nat
  /-- The bytes to come. -/
  rest : List UInt8
  deriving Repr

/-- A reader of bytes. -/
abbrev Reader := StateT Cursor (Except Fault)

/-- The next byte. -/
def readByte : Reader UInt8 := fun cursor =>
  match cursor.rest with
  | [] => .error .truncated
  | b :: rest => .ok (b, ⟨cursor.offset + 1, rest⟩)

/-- The next `n` bytes. -/
def takeBytes (n : Nat) : Reader (List UInt8) := fun cursor =>
  let (front, rest) := cursor.rest.splitAt n
  if front.length < n then .error .truncated else .ok (front, ⟨cursor.offset + n, rest⟩)

/-- A number of `width` bytes. -/
def readNat (width : Nat) : Reader Nat := ofBigEndian <$> takeBytes width

/-- A number of `width` bytes whose highest bit is its sign. -/
def readSigned (width : Nat) : Reader Int := ofSignedBigEndian <$> takeBytes width

/-- **The head of an item**: the whole of it for null, booleans and numbers,
and its size for everything else. -/
inductive Head where
  | null
  | bool (b : Bool)
  | int (n : Int)
  | float (x : Binary64)
  | text (size : Nat)
  | bytes (size : Nat)
  | list (count : Nat)
  | map (count : Nat)
  | extension (size : Nat)
  deriving DecidableEq, Repr

/-- The kind of item a head starts. -/
def Head.kind : Head → Kind
  | .null => .null
  | .bool _ => .bool
  | .int _ => .int
  | .float _ => .float
  | .text _ => .text
  | .bytes _ => .bytes
  | .list _ => .list
  | .map _ => .map
  | .extension _ => .extension

/-- What an opcode starts, and the reader of the rest of its head; none for
the opcode without a meaning. -/
def headOf? (opcode : Nat) : Option (Reader Head) :=
  if opcode < 0x80 then some (pure (.int opcode))
  else if opcode < 0x90 then some (pure (.map (opcode - 0x80)))
  else if opcode < 0xA0 then some (pure (.list (opcode - 0x90)))
  else if opcode < 0xC0 then some (pure (.text (opcode - 0xA0)))
  else if 0xE0 ≤ opcode then some (pure (.int ((opcode : Int) - 0x100)))
  else match opcode with
    | 0xC0 => some (pure .null)
    | 0xC2 => some (pure (.bool false))
    | 0xC3 => some (pure (.bool true))
    | 0xC4 => some (.bytes <$> readNat 1)
    | 0xC5 => some (.bytes <$> readNat 2)
    | 0xC6 => some (.bytes <$> readNat 4)
    | 0xC7 => some (.extension <$> readNat 1)
    | 0xC8 => some (.extension <$> readNat 2)
    | 0xC9 => some (.extension <$> readNat 4)
    | 0xCA => some ((.float ∘ Binary64.ofSingle) <$> readNat 4)
    | 0xCB => some ((fun bits => .float ⟨UInt64.ofNat bits⟩) <$> readNat 8)
    | 0xCC => some ((fun n => .int n) <$> readNat 1)
    | 0xCD => some ((fun n => .int n) <$> readNat 2)
    | 0xCE => some ((fun n => .int n) <$> readNat 4)
    | 0xCF => some ((fun n => .int n) <$> readNat 8)
    | 0xD0 => some (.int <$> readSigned 1)
    | 0xD1 => some (.int <$> readSigned 2)
    | 0xD2 => some (.int <$> readSigned 4)
    | 0xD3 => some (.int <$> readSigned 8)
    | 0xD4 => some (pure (.extension 1))
    | 0xD5 => some (pure (.extension 2))
    | 0xD6 => some (pure (.extension 4))
    | 0xD7 => some (pure (.extension 8))
    | 0xD8 => some (pure (.extension 16))
    | 0xD9 => some (.text <$> readNat 1)
    | 0xDA => some (.text <$> readNat 2)
    | 0xDB => some (.text <$> readNat 4)
    | 0xDC => some (.list <$> readNat 2)
    | 0xDD => some (.list <$> readNat 4)
    | 0xDE => some (.map <$> readNat 2)
    | 0xDF => some (.map <$> readNat 4)
    | _ => none

/-- The head of the next item. -/
def readHead : Reader Head := do
  let start ← get
  let opcode ← readByte
  match headOf? opcode.toNat with
  | some head => head
  | none => throw (.opcode opcode start.offset)

/-- The text of the next `size` bytes. -/
def textBody (size : Nat) : Reader String := do
  match Text.Utf8.decode (← takeBytes size) with
  | .ok s => return s
  | .error fault => throw (.badText fault)

/-- As many items as are left, each read by its number; the results come
after those collected before, which are given last first. -/
def collect {α : Type} (item : Nat → Reader α) : (left i : Nat) → List α → Reader (List α)
  | 0, _, before => pure before.reverse
  | left + 1, i, before => do
    let x ← item i
    collect item left (i + 1) (x :: before)

/-- An entry of a map. Whether its key can be one is asked when the whole
entry has been read. -/
def readEntry (key value : Reader Value) : Reader (Value × Value) := do
  let k ← key
  let v ← value
  if k.isKey then return (k, v) else throw (.badKey (← get).offset)

/-- The body of an extension: its type and its data, which are those of a point in
time where they are a timestamp. -/
def extensionBody (size : Nat) (place : Place) : Reader Value := do
  let type ← readByte
  let data ← takeBytes size
  if type ≠ Timestamp.typeByte then return .extension type data
  match Timestamp.moment data with
  | .error fault => throw (.badTimestamp fault place)
  | .ok t => return .moment t

/-- The map of entries that were read. Of entries with equal keys the first gives
the key and the last the value. -/
def mapOf (entries : List (Value × Value)) : Value :=
  .map (entries.foldl (fun map (k, v) => Value.put map k v) [])

/-- **The next item, whatever its kind.** The first argument bounds the
nesting. -/
def readValue : Nat → Place → Reader Value
  | 0, _ => throw .tooDeep
  | depth + 1, place => do
    match ← readHead with
    | .null => return .null
    | .bool b => return .bool b
    | .int n => return .int n
    | .float x => return .float x
    | .text size => .text <$> textBody size
    | .bytes size => .bytes <$> takeBytes size
    | .list count => .list <$> collect (fun i => readValue depth (place ++ [.item i])) count 0 []
    | .map count =>
      let part (step : Step) := readValue depth (place ++ [step])
      mapOf <$> collect (fun _ => readEntry (part .key) (part .value)) count 0 []
    | .extension size => extensionBody size place

/-- **The next item, passed over.** Texts in it are not decoded. -/
def skipValue : Nat → Reader Unit
  | 0 => throw .tooDeep
  | depth + 1 => do
    match ← readHead with
    | .text size => discard (takeBytes size)
    | .bytes size => discard (takeBytes size)
    | .extension size => discard (takeBytes (size + 1))
    | .list count => discard (collect (fun _ => skipValue depth) count 0 [])
    | .map count => discard (collect (fun _ => skipValue depth) (2 * count) 0 [])
    | _ => return ()

/-! ## Items of one kind -/

/-- An item of the wrong kind is refused, after its body where that is a
string of bytes. -/
def refuse {α : Type} (head : Head) (wanted : Wanted) (place : Place) : Reader α := do
  match head with
  | .text size => discard (takeBytes size)
  | .bytes size => discard (takeBytes size)
  | .extension size => discard (takeBytes (size + 1))
  | _ => pure ()
  throw (.mismatch wanted head.kind place)

/-- An item that must be a text. -/
def readText (place : Place) : Reader String := do
  match ← readHead with
  | .text size => textBody size
  | head => refuse head ⟨.text, false⟩ place

/-- An item that must be a text or null. -/
def readText? (place : Place) : Reader (Option String) := do
  match ← readHead with
  | .text size => some <$> textBody size
  | .null => return none
  | head => refuse head ⟨.text, true⟩ place

/-- An item that must be an integer. -/
def readInt (place : Place) : Reader Int := do
  match ← readHead with
  | .int n => return n
  | head => refuse head ⟨.int, false⟩ place

/-- An item that must be an integer or null. -/
def readInt? (place : Place) : Reader (Option Int) := do
  match ← readHead with
  | .int n => return some n
  | .null => return none
  | head => refuse head ⟨.int, true⟩ place

/-- An item that must be a boolean. -/
def readBool (place : Place) : Reader Bool := do
  match ← readHead with
  | .bool b => return b
  | head => refuse head ⟨.bool, false⟩ place

/-- The number of items of an item that must be a list. -/
def readListHead (place : Place) : Reader Nat := do
  match ← readHead with
  | .list count => return count
  | head => refuse head ⟨.list, false⟩ place

/-- The number of entries of an item that must be a map. -/
def readMapHead (place : Place) : Reader Nat := do
  match ← readHead with
  | .map count => return count
  | head => refuse head ⟨.map, false⟩ place

/-- The kind of item an opcode starts; none for the opcode without a
meaning. -/
def opcodeKind? (n : Nat) : Option Kind :=
  if n < 0x80 ∨ 0xE0 ≤ n ∨ (0xCC ≤ n ∧ n ≤ 0xD3) then some .int
  else if n < 0x90 ∨ n = 0xDE ∨ n = 0xDF then some .map
  else if n < 0xA0 ∨ n = 0xDC ∨ n = 0xDD then some .list
  else if n < 0xC0 ∨ (0xD9 ≤ n ∧ n ≤ 0xDB) then some .text
  else if n = 0xC0 then some .null
  else if n = 0xC1 then none
  else if n ≤ 0xC3 then some .bool
  else if n ≤ 0xC6 then some .bytes
  else if n = 0xCA ∨ n = 0xCB then some .float
  else some .extension

/-- **The bytes of a key of a record**, which must be a text. They are
compared with names as they are, so they need not be UTF-8. Nothing after
the opcode of another item is read. -/
def readKey : Reader (List UInt8) := do
  let opcode := (← readByte).toNat
  match opcodeKind? opcode with
  | some .text =>
    let size ←
      if opcode = 0xD9 then readNat 1
      else if opcode = 0xDA then readNat 2
      else if opcode = 0xDB then readNat 4
      else pure (opcode - 0xA0)
    takeBytes size
  | found => throw (.keyMismatch found)

/-- A reader run over a whole byte string. -/
def Reader.run {α : Type} (reader : Reader α) (bytes : List UInt8) : Except Fault α := do
  let (x, cursor) ← StateT.run reader ⟨0, bytes⟩
  if cursor.rest.isEmpty then .ok x else .error (.trailing cursor.offset)

end RangeReader.MessagePack

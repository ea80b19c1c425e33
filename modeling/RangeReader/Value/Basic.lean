import RangeReader.Number.Binary64
import RangeReader.Value.Moment

/-!
# Values

An option of a read, a field of an object's metadata and a captured position
are written by callers who may write anything, so they are values of one
dynamic type: null, booleans, integers of any size, doubles, texts, byte
strings, lists and maps. A map keeps the order in which its keys were first
put. Two more kinds come out of saved states: points in time, and extensions,
which are byte strings of a type that is known by a number only.

Equality of values is equality of what they denote. A boolean is the number
`0` or `1`, an integer and a double are compared exactly, and maps are equal
when they have equal entries in any order. A double that is not a number
equals nothing. Lists, maps and extensions are not hashable: they can be neither
the key of a map nor part of a value that is hashed.
-/

namespace RangeReader

/-- **A dynamic value.** -/
inductive Value where
  /-- The absent value. -/
  | null
  /-- A boolean. -/
  | bool (b : Bool)
  /-- An integer of any size. -/
  | int (n : Int)
  /-- A double. -/
  | float (x : Binary64)
  /-- A text. -/
  | text (s : String)
  /-- A byte string. -/
  | bytes (bytes : List UInt8)
  /-- A list. -/
  | list (items : List Value)
  /-- A map, as its entries in the order of first insertion. -/
  | map (entries : List (Value × Value))
  /-- A point in time. -/
  | moment (t : Moment)
  /-- An extension, by the byte of its type and its data. -/
  | extension (type : UInt8) (data : List UInt8)
  deriving Inhabited

namespace Value

/-- The name of the type of a value. -/
def typeName : Value → String
  | .null => "NoneType"
  | .bool _ => "bool"
  | .int _ => "int"
  | .float _ => "float"
  | .text _ => "str"
  | .bytes _ => "bytes"
  | .list _ => "list"
  | .map _ => "dict"
  | .moment _ => "datetime"
  | .extension .. => "Ext"

/-- Whether a value is null. -/
def isNull : Value → Bool
  | .null => true
  | _ => false

/-- The integer that a boolean or an integer stands for. -/
def asInt? : Value → Option Int
  | .bool b => some (if b then 1 else 0)
  | .int n => some n
  | _ => none

/-- **Whether a value counts as true**: null, false, zeros and everything
empty do not. -/
def truthy : Value → Bool
  | .null => false
  | .bool b => b
  | .int n => n ≠ 0
  | .float x => !x.isZero
  | .text s => !s.isEmpty
  | .bytes b => !b.isEmpty
  | .list items => !items.isEmpty
  | .map entries => !entries.isEmpty
  | .moment _ => true
  | .extension .. => true

/-- Equality of two values that are not lists or maps. -/
def sameScalar (a b : Value) : Bool :=
  match a, b with
  | .null, .null => true
  | .text s, .text t => s == t
  | .bytes s, .bytes t => s == t
  | .moment s, .moment t => s == t
  | .extension c s, .extension d t => c == d && s == t
  | .float x, .float y => x.compare? y == some .eq
  | .float x, b => match b.asInt? with
    | some n => x.compareInt? n == some .eq
    | none => false
  | a, .float y => match a.asInt? with
    | some n => y.compareInt? n == some .eq
    | none => false
  | a, b => match a.asInt?, b.asInt? with
    | some m, some n => m == n
    | _, _ => false

mutual

/-- **Whether two values are equal.** -/
def same : Value → Value → Bool
  | .list xs, .list ys => sameItems xs ys
  | .map xs, .map ys => xs.length == ys.length && sameEntries xs ys
  | .list _, _ => false
  | .map _, _ => false
  | a, b => sameScalar a b

/-- Whether two lists have equal items in order. -/
def sameItems : List Value → List Value → Bool
  | [], [] => true
  | x :: xs, y :: ys => same x y && sameItems xs ys
  | _, _ => false

/-- Whether each entry of the first list has an equal one in the second. -/
def sameEntries : List (Value × Value) → List (Value × Value) → Bool
  | [], _ => true
  | (k, v) :: rest, ys =>
    ys.any (fun entry => same k entry.1 && same v entry.2) && sameEntries rest ys

end

/-- Whether a value can be hashed. -/
def isHashable : Value → Bool
  | .list _ => false
  | .map _ => false
  | .extension .. => false
  | _ => true

/-- **Whether a value read in the place of a key can be one.** A list in that
place is fixed and is a key when its items are; a map and an extension never
are. -/
def isKey : Value → Bool
  | .map _ => false
  | .extension .. => false
  | .list items => items.attach.all fun ⟨item, _⟩ => isKey item
  | _ => true

/-- An entry put into a map: it replaces the value under an equal key, and
otherwise goes to the end. -/
def put (entries : List (Value × Value)) (k v : Value) : List (Value × Value) :=
  match entries with
  | [] => [(k, v)]
  | (k', v') :: rest => if same k' k then (k', v) :: rest else (k', v') :: put rest k v

/-- The value under a text key. -/
def lookup? (entries : List (Value × Value)) (name : String) : Option Value :=
  (entries.find? fun
    | (.text s, _) => s == name
    | _ => false).map Prod.snd

end Value

end RangeReader

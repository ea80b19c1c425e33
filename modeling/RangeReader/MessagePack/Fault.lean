import RangeReader.MessagePack.Timestamp
import RangeReader.Text.Utf8
import RangeReader.Text.Quoted

/-!
# What can be wrong with MessagePack bytes

Bytes are refused for their form – they end too early, go on too long, or
use the one opcode without a meaning – or for their content, when an item is
not of the kind that its place asks for. A fault of content says where the
item stands.
-/

namespace RangeReader.MessagePack

/-- The kinds of item. -/
inductive Kind where
  | null
  | bool
  | int
  | float
  | text
  | bytes
  | list
  | map
  | extension
  deriving DecidableEq, Repr

/-- The word for an item of a kind where one was found. -/
def Kind.found : Kind → String
  | .null => "None"
  | .bool => "bool"
  | .int => "int"
  | .float => "float"
  | .text => "str"
  | .bytes => "bytes"
  | .list => "array"
  | .map => "object"
  | .extension => "ext"

/-- The word for a kind in the description of what is wanted, and for an item
found in the place of a key. -/
def Kind.wanted : Kind → String
  | .null => "null"
  | kind => kind.found

/-- What a place asks for: a kind, or that kind or null. -/
structure Wanted where
  /-- The kind asked for. -/
  kind : Kind
  /-- Whether null will do as well. -/
  orNull : Bool
  deriving DecidableEq, Repr

/-- The words for what a place asks for. -/
def Wanted.text (w : Wanted) : String :=
  w.kind.wanted ++ (if w.orNull then " | " ++ Kind.null.wanted else "")

/-- A step from an item to one inside it. -/
inductive Step where
  /-- To a field of a record. -/
  | field (name : String)
  /-- To an item of a list. -/
  | item (index : Nat)
  /-- To a value in a map. -/
  | value
  /-- To a key of a map. -/
  | key
  deriving DecidableEq, Repr

/-- Where an item stands: the steps to it from the outermost one. -/
abbrev Place := List Step

/-- The paths of a place, given the path so far: a key of a map starts a path
of its own, and the last path comes first. -/
def Place.paths (path : String) : Place → List String
  | [] => [path]
  | .field name :: rest => paths (path ++ "." ++ name) rest
  | .item index :: rest => paths (path ++ "[" ++ toString index ++ "]") rest
  | .value :: rest => paths (path ++ "[...]") rest
  | .key :: rest => paths "key" rest ++ [path]

/-- What a message says about a place: nothing about the outermost item. -/
def Place.note (place : Place) : String :=
  if place.isEmpty then ""
  else " - at " ++ " in ".intercalate ((place.paths "$").map fun path => "`" ++ path ++ "`")

/-- **Why bytes are refused.** -/
inductive Fault where
  /-- The bytes end inside an item. -/
  | truncated
  /-- Bytes follow the outermost item, from this offset on. -/
  | trailing (offset : Nat)
  /-- A byte that starts no item, at this offset. -/
  | opcode (byte : UInt8) (offset : Nat)
  /-- An item of the wrong kind. -/
  | mismatch (wanted : Wanted) (found : Kind) (place : Place)
  /-- A key of a record that is not a text; the kind is none for a byte that
  starts no item. -/
  | keyMismatch (found : Option Kind)
  /-- A pair that has another number of items than two. -/
  | pairLength (count : Nat) (place : Place)
  /-- A record without one of its fields. -/
  | missingField (name : String)
  /-- A text that is not UTF-8. -/
  | badText (fault : Text.Utf8.Fault)
  /-- A key of a map that cannot be one; the entry ends at this offset. -/
  | badKey (offset : Nat)
  /-- An extension item that is a timestamp, but no point in time. -/
  | badTimestamp (fault : TimestampFault) (place : Place)
  /-- Items nested beyond the bound given to the reader. -/
  | tooDeep
  deriving DecidableEq, Repr

/-- What a message says about bytes that are not UTF-8: the byte where it is
one, and a range of positions where they are several. -/
def badTextMessage (f : Text.Utf8.Fault) : String :=
  "'utf-8' codec can't decode " ++
    (if f.length = 1 then
      "byte 0x" ++ String.ofList (Text.hexFixed 2 f.byte.toNat)
        ++ " in position " ++ toString f.position
    else
      "bytes in position " ++ toString f.position ++ "-"
        ++ toString (f.position + f.length - 1))
    ++ ": " ++ f.reason.text

/-- **The message of a fault.** -/
def Fault.message : Fault → String
  | .truncated => "Input data was truncated"
  | .trailing offset =>
    "MessagePack data is malformed: trailing characters (byte " ++ toString offset ++ ")"
  | .opcode byte offset =>
    "MessagePack data is malformed: invalid opcode '\\x"
      ++ String.ofList (Text.hexFixed 2 byte.toNat) ++ "' (byte " ++ toString offset ++ ")"
  | .mismatch wanted found place =>
    "Expected `" ++ wanted.text ++ "`, got `" ++ found.found ++ "`" ++ place.note
  | .keyMismatch found =>
    "Expected `str`, got `" ++ (found.elim "unknown" Kind.wanted) ++ "`" ++ Place.note [.key]
  | .pairLength count place =>
    "Expected `array` of length 2, got " ++ toString count ++ place.note
  | .missingField name => "Object missing required field `" ++ name ++ "`"
  | .badText fault => badTextMessage fault
  | .badKey offset =>
    "MessagePack data is malformed: map keys must be hashable (byte " ++ toString offset ++ ")"
  | .badTimestamp .length place => "Invalid MessagePack timestamp" ++ place.note
  | .badTimestamp .nanoseconds place =>
    "Invalid MessagePack timestamp: nanoseconds out of range" ++ place.note
  | .badTimestamp .range place => "Timestamp is out of range " ++ place.note
  | .badTimestamp .year _ => "year 10000 is out of range"
  | .tooDeep => "Items are nested too deeply"

end RangeReader.MessagePack

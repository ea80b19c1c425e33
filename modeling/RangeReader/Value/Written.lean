import RangeReader.Value.Basic
import RangeReader.Number.Shortest
import RangeReader.Text.Quoted

/-!
# Values as text

A value has two written forms. `shown` is the one used inside messages and
inside other values: texts are quoted. `plain` is the one used where a value
becomes part of a text, and differs only for a value that is itself a text and
for a point in time. An extension is shown by the name of its type alone.
-/

namespace RangeReader.Value

mutual

/-- **A value as it is shown in a message.** -/
def shown : Value → String
  | .null => "None"
  | .bool b => if b then "True" else "False"
  | .int n => toString n
  | .float x => x.text
  | .text s => Text.quoted s
  | .bytes b => Text.quotedBytes b
  | .list items => "[" ++ ", ".intercalate (shownItems items) ++ "]"
  | .map entries => "\x7b" ++ ", ".intercalate (shownEntries entries) ++ "\x7d"
  | .moment t => t.shown
  | .extension .. => "<msgspec.msgpack.Ext object>"

/-- The items of a list, each as it is shown. -/
def shownItems : List Value → List String
  | [] => []
  | x :: xs => shown x :: shownItems xs

/-- The entries of a map, each as it is shown. -/
def shownEntries : List (Value × Value) → List String
  | [] => []
  | (k, v) :: rest => (shown k ++ ": " ++ shown v) :: shownEntries rest

end

/-- **A value as part of a text.** -/
def plain : Value → String
  | .text s => s
  | .moment t => t.plain
  | v => shown v

end RangeReader.Value

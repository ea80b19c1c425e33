import RangeReader.Retry
import RangeReader.ObjectRecord
import RangeReader.ReadOption

/-!
# Sources of ranges

A source answers requests for ranges of bytes of an object and keeps a
journal. It is all that a channel knows of the world: a function on a state
`σ`, about which nothing is assumed. An answer with fewer bytes than asked
for means the end of the object.

`Source.retrying` puts a retry policy in front of a source. The result is a
source again, so a channel does not see how many attempts a range took.
-/

namespace RangeReader

/-- **A request for a range** of bytes of an object. -/
structure RangeRequest where
  /-- The object, as requests describe it. -/
  target : ObjectRecord
  /-- The options of the read. -/
  options : List ReadOption
  /-- The offset of the first byte. -/
  offset : Nat
  /-- The greatest number of bytes wanted. -/
  length : Nat

/-- **An answer**: the bytes, and the tag of the content they are from. -/
structure Fetched where
  /-- The tag of the content. -/
  etag : Option String
  /-- The bytes. -/
  data : List UInt8
  deriving DecidableEq, Repr

/-- **A source of ranges**, over a state `σ`. -/
structure Source (σ : Type) where
  /-- Answers a request. -/
  fetch : RangeRequest → σ → Except Fault Fetched × σ
  /-- Takes an event into the journal. -/
  note : Event → σ → σ

/-- **A source behind a retry policy.** -/
def Source.retrying {σ : Type} (policy : RetryPolicy Fetched σ) (source : Source σ) : Source σ where
  fetch request :=
    policy.operate source.note request.target.bucket request.target.name (source.fetch request)
  note := source.note

end RangeReader

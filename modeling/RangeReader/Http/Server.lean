import RangeReader.Http.Client

/-!
# A faithful service

The object behind a URL, and how a service that keeps to the rules answers
for it: a range with the part of the object that is in it, a range that
starts at or past the end with the answer that there is nothing in it. A
service may also pay no heed to ranges and always answer with the whole
object.
-/

namespace RangeReader.Http

/-- **An object as a service has it.** -/
structure Hosted where
  /-- The content. -/
  data : List UInt8
  /-- The tag of the content, where the service has one. -/
  etag : Option String
  /-- The generation, where the service says it. -/
  generation : Option String
  /-- Whether the service keeps to ranges. -/
  ranges : Bool

namespace Hosted

/-- The headers of an answer. -/
def headers (h : Hosted) : List (String × String) :=
  h.etag.elim [] (fun s => [(etagHeader, s)])
    ++ h.generation.elim [] fun s => [("X-Goog-Generation", s)]

/-- **The answer to a GET.** -/
def respond (h : Hosted) (get : Get) : Response :=
  if !h.ranges then ⟨statusOk, h.headers, .ok h.data⟩
  else match h.data.drop get.offset with
    | [] => ⟨statusNoRange, h.headers, .ok []⟩
    | part => ⟨statusPartial, h.headers, .ok (part.take get.length)⟩

end Hosted

end RangeReader.Http

import RangeReader.Source

/-!
# Answers of an HTTP service

An answer is a status, headers and a body that may turn out to be unreadable
when it is looked at. Statuses from 200 to 399 are a success; every other one
is a failed transport, of a kind that the status decides.
-/

namespace RangeReader.Http

/-- **An answer** of the service. -/
structure Response where
  /-- The status. -/
  status : Int
  /-- The headers, in order. -/
  headers : List (String × String)
  /-- The body, or the fault met when it is read. -/
  body : Except Fault (List UInt8)

/-- The status of an answer with the whole object. -/
def statusOk : Int := 200

/-- The status of an answer with a part of the object. -/
def statusPartial : Int := 206

/-- The status that says there is nothing in the range asked for. -/
def statusNoRange : Int := 416

/-- The statuses of a failure that another attempt may not meet, besides
those from 500 on. -/
def passingStatuses : List Int := [408, 429]

/-- **The kind of failure that a status stands for**; none for a success. -/
def failureKind? (status : Int) : Option TransportKind :=
  if 200 ≤ status ∧ status < 400 then none
  else if status < 400 ∨ 600 ≤ status then some .other
  else if status = 404 then some .notFound
  else if status = 412 then some .preconditionFailed
  else if passingStatuses.contains status ∨ 500 ≤ status then some .retryable
  else some .other

/-- The value of a header, whose name is compared without regard to case. Of
two with the same name the later one counts. -/
def header? (r : Response) (name : String) : Option String :=
  (r.headers.reverse.find? fun h => h.1.toLower == name.toLower).map Prod.snd

/-- A text that is there and not empty. -/
def given? : Option String → Option String
  | some s => if s.isEmpty then none else some s
  | none => none

/-- The header of the tag of the content. -/
def etagHeader : String := "ETag"

/-- The header of the generation. -/
def generationHeader : String := "x-goog-generation"

/-- **The tag of the content of an answer**: that of the tag header, or the
generation where that one is empty or missing. -/
def Response.etag? (r : Response) : Option String :=
  (given? (header? r etagHeader)).or (header? r generationHeader)

/-- **A failed answer as a fault**, in the words of its body; none for a
success. A body that cannot be read is a fault of its own. -/
def Response.fault? (r : Response) (url : String) : Option Fault :=
  (failureKind? r.status).map fun kind =>
    match r.body with
    | .ok body => .transport kind r.status (Text.Utf8.decodeLossy body) url
    | .error fault => fault

end RangeReader.Http

import RangeReader.Held
import RangeReader.Http.Server

/-!
# Stages

A stage is a world to try a reader in: services with a script each, and a
record of everything that reached them. A service answers each attempt as the
next step of its script says, and as a faithful service would once the script
is over.

The record has what arrived at the services, the uses made of the bodies of
answers, the journal and the attempts that a retry policy was about to wait
after; the last entry of each comes first.
-/

namespace RangeReader

/-! ## Services -/

/-- A step in the script of a held object. -/
inductive HeldStep where
  /-- The attempt fails. -/
  | fail (fault : Fault)
  /-- The attempt gets this answer. -/
  | give (answer : Fetched)
  /-- The attempt is served. -/
  | serve

/-- A step in the script of an HTTP service. -/
inductive HttpStep where
  /-- The request fails. -/
  | fail (fault : Fault)
  /-- The request gets this answer. -/
  | give (answer : Http.Response)
  /-- The request is served, but the body of the answer cannot be read. -/
  | serveUnreadable (fault : Fault)
  /-- The request is served. -/
  | serve

/-- **A service with its script.** -/
inductive Service where
  /-- An object held in memory. -/
  | held (object : Held) (script : List HeldStep)
  /-- An object behind HTTP, and the client that asks for it. -/
  | http (client : Http.Client) (hosted : Http.Hosted) (script : List HttpStep)

/-- The outcome of a step for a request to a held object. -/
def HeldStep.outcome (object : Held) (request : RangeRequest) : HeldStep → Except Fault Fetched
  | .fail fault => .error fault
  | .give answer => .ok answer
  | .serve => .ok (object.answer request)

/-- The outcome of a step for a GET. -/
def HttpStep.outcome (hosted : Http.Hosted) (get : Http.Get) :
    HttpStep → Except Fault Http.Response
  | .fail fault => .error fault
  | .give answer => .ok answer
  | .serveUnreadable fault => .ok { hosted.respond get with body := .error fault }
  | .serve => .ok (hosted.respond get)

/-! ## The stage -/

/-- **What arrived at a service.** -/
inductive Arrival where
  /-- A request to a held object. -/
  | range (request : RangeRequest)
  /-- A GET. -/
  | get (get : Http.Get)

/-- The range that an arrival asks for: its offset and its length. -/
def Arrival.extent : Arrival → Nat × Nat
  | .range request => (request.offset, request.length)
  | .get request => (request.offset, request.length)

/-- **A stage.** -/
structure Stage where
  /-- The services, by number. -/
  services : List Service
  /-- What arrived, with the number of the service. -/
  arrivals : List (Nat × Arrival) := []
  /-- The uses of bodies. -/
  uses : List Http.BodyUse := []
  /-- The journal. -/
  journal : List Event := []
  /-- The attempts that were followed by a wait. -/
  waits : List Nat := []

namespace Stage

/-- A stage with an event in its journal. -/
def note (e : Event) (s : Stage) : Stage := { s with journal := e :: s.journal }

/-- A stage with a wait after an attempt. -/
def wait (attempt : Nat) (s : Stage) : Stage := { s with waits := attempt :: s.waits }

/-- A stage with an arrival at a service, which is as given from now on. -/
def arrive (i : Nat) (a : Arrival) (service : Service) (s : Stage) : Stage :=
  { s with services := s.services.set i service, arrivals := (i, a) :: s.arrivals }

/-- The next step of a script, and the script after it; a script that is over
goes on with `last`. -/
def next {α : Type} (last : α) : List α → α × List α
  | [] => (last, [])
  | step :: rest => (step, rest)

/-- **The session with service number `i`.** -/
def session (i : Nat) : Http.Session Stage where
  send get s :=
    match s.services[i]? with
    | some (.http client hosted script) =>
      let (step, rest) := next .serve script
      (step.outcome hosted get, s.arrive i (.get get) (.http client hosted rest))
    | _ => (.ok ⟨Http.statusNoRange, [], .ok []⟩, s)
  touch use s := { s with uses := use :: s.uses }
  note := note

/-- **Service number `i` as a source.** -/
def source (i : Nat) : Source Stage where
  fetch request s :=
    match s.services[i]? with
    | some (.held object script) =>
      let (step, rest) := next .serve script
      (step.outcome object request, s.arrive i (.range request) (.held object rest))
    | some (.http client _ _) => client.fetch (session i) request s
    | none => (.ok ⟨none, []⟩, s)
  note := note

/-- The content and the tag of a service replaced. -/
def replaceContent (i : Nat) (data : List UInt8) (etag : Option String) (s : Stage) : Stage :=
  { s with services := s.services.modify i fun
    | .held _ script => .held ⟨data, etag⟩ script
    | .http client hosted script => .http client { hosted with data := data, etag := etag } script }

/-- Steps added to the script of a held object. -/
def extendHeld (i : Nat) (steps : List HeldStep) (s : Stage) : Stage :=
  { s with services := s.services.modify i fun
    | .held object script => .held object (script ++ steps)
    | service => service }

/-- Steps added to the script of an HTTP service. -/
def extendHttp (i : Nat) (steps : List HttpStep) (s : Stage) : Stage :=
  { s with services := s.services.modify i fun
    | .http client hosted script => .http client hosted (script ++ steps)
    | service => service }

/-- The record without its entries; the services stay as they are. -/
def cleared (s : Stage) : Stage := { services := s.services }

end Stage

end RangeReader

import RangeReader.Http.Response
import RangeReader.Text.Percent

/-!
# Ranges over HTTP

A client asks for a range with one GET of the media of an object. The range
goes into a header, the options into the query and the headers.

Failures of the connection, while the request is sent as well as while the
body is read, are reported as a failed transport that may be tried again. The
answer that there is nothing in the range stands for the end of the object.
A service that pays no heed to the range answers with the whole object, of
which the range is then cut out.
-/

namespace RangeReader.Http

/-! ## Requests -/

/-- The version of this library, as it presents itself. -/
def version : String := "0.1.0"

/-- **A GET.** -/
structure Get where
  /-- The URL. -/
  url : String
  /-- The parameters of the query. -/
  params : List (String × Value)
  /-- The headers. -/
  headers : List (String × Value)
  /-- The timeout, as it was configured. -/
  timeout : Value
  /-- Whether the body is read as it is stored. -/
  stream : Bool
  /-- The offset of the first byte of the range. -/
  offset : Nat
  /-- The number of bytes in the range. -/
  length : Nat

/-- **What is used of the environment.** -/
structure Environment where
  /-- The root of the service. -/
  endpoint : Option String := none
  /-- The token of the caller. -/
  token : Option String := none
  /-- The file of trusted certificates. -/
  caBundle : Option String := none

/-- The root of the service where nothing else is said. -/
def publicEndpoint : String := "https://storage.googleapis.com"

/-- **A client** of the service. -/
structure Client where
  /-- The URL that all others start with. -/
  baseUrl : String
  /-- The token of the caller. -/
  token : Option String
  /-- The timeout of requests. -/
  timeout : Value

namespace Client

/-- The URL of the service under a root, whose trailing slashes do not
count. -/
def baseUrlOf (endpoint : String) : String :=
  String.ofList (endpoint.toList.reverse.dropWhile (· = '/')).reverse ++ "/storage/v1"

/-- **A client** with a root and a token. What is empty or missing is taken
from the environment. -/
def make (endpoint token : Option String) (timeout : Value) (env : Environment) : Client where
  baseUrl :=
    baseUrlOf (((given? endpoint).or (given? env.endpoint)).getD publicEndpoint)
  token := (given? token).or (given? env.token)
  timeout := timeout

/-- **The URL of an object**, whose bucket and name are one segment each. -/
def objectUrl (client : Client) (target : ObjectRecord) : String :=
  client.baseUrl ++ "/b/" ++ Text.Percent.encode target.bucket ++ "/o/"
    ++ Text.Percent.encode target.name

/-- The parameters of a request. -/
def params (request : RangeRequest) : List (String × Value) :=
  [("alt", .text "media")]
    ++ (request.target.generation.elim [] fun n => [("generation", .text (toString n))])
    ++ (QueryParams.ofOptions request.options).toList

/-- The headers of a request. -/
def headers (client : Client) (request : RangeRequest) :
    Except KeyFault (List (String × Value)) := do
  let options ← OptionHeaders.ofOptions request.options
  return options.toList
    ++ [("User-Agent", .text ("blobchannel/python/" ++ version)),
      ("Range", .text ("bytes=" ++ toString request.offset ++ "-"
        ++ toString (request.offset + request.length - 1)))]
    ++ client.token.elim [] fun token => [("Authorization", .text ("Bearer " ++ token))]

/-- **The GET for a range**; refused where a key cannot be sent. -/
def get (client : Client) (request : RangeRequest) : Except KeyFault Get := do
  return {
    url := client.objectUrl request.target
    params := params request
    headers := ← client.headers request
    timeout := client.timeout
    stream := ReadOption.wantsRaw request.options
    offset := request.offset
    length := request.length }

end Client

/-! ## Answers -/

/-- How a body is looked at. -/
inductive BodyUse where
  /-- As the words of a failure. -/
  | words
  /-- As content, decompressed where the service compressed it. -/
  | content
  /-- As it is stored. -/
  | stored
  deriving DecidableEq, Repr

/-- **A session**: what sends requests, over a state `σ`. -/
structure Session (σ : Type) where
  /-- Sends a request. -/
  send : Get → σ → Except Fault Response × σ
  /-- Takes note of the use of a body. -/
  touch : BodyUse → σ → σ
  /-- Takes an event into the journal. -/
  note : Event → σ → σ

/-- A fault as the client reports it: failures of the connection are failed
transports. -/
def reported (url : String) (fault : Fault) : Fault :=
  if fault.isConnectionFailure then .transport .retryable 0 fault.text url else fault

/-- How the body of an answer is used: the words of a failure, or the content
in the form the request asked for. -/
def bodyUse (get : Get) (r : Response) : BodyUse :=
  if (failureKind? r.status).isSome then .words else if get.stream then .stored else .content

/-- The range cut out of the body of a successful answer. -/
def cut (get : Get) (status : Int) (body : List UInt8) : List UInt8 :=
  (if status = statusOk then body.drop get.offset else body).take get.length

/-- **What an answer gives for a range.** -/
def rangeOf (get : Get) (r : Response) : Except Fault Fetched :=
  if r.status = statusNoRange then .ok ⟨none, []⟩
  else match r.fault? get.url with
    | some fault => .error fault
    | none => r.body.map fun body => ⟨r.etag?, cut get r.status body⟩

variable {σ : Type}

/-- **Sends a GET** and takes the range from the answer. -/
def exchange (session : Session σ) (get : Get) (s : σ) : Except Fault Fetched × σ :=
  match session.send get s with
  | (.error fault, s) => (.error (reported get.url fault), s)
  | (.ok r, s) =>
    ((rangeOf get r).mapError (reported get.url),
      if r.status = statusNoRange then s else session.touch (bodyUse get r) s)

/-- **Fetches a range** of at least one byte. -/
def Client.fetch (client : Client) (session : Session σ) (request : RangeRequest) (s : σ) :
    Except Fault Fetched × σ :=
  let last := request.offset + request.length - 1
  let s := session.note (.requesting (client.objectUrl request.target) request.offset last) s
  match client.get request with
  | .error fault => (.error (.badKey fault), s)
  | .ok get => exchange session get s

/-- **A client as a source** of ranges. -/
def Client.source (client : Client) (session : Session σ) : Source σ where
  fetch := client.fetch session
  note := session.note

/-! ## Ranges given as integers -/

/-- A range given by an offset and a length: the offset must not be negative,
the length must be positive. -/
def checkRange (offset length : Int) : Except Fault (Nat × Nat) :=
  if offset < 0 then .error (.invalidArgument (.negativeOffset offset))
  else if length ≤ 0 then .error (.invalidArgument (.emptyRange length))
  else .ok (offset.toNat, length.toNat)

/-- **Fetches a range** given as integers; a bad one is refused before
anything else happens. -/
def Client.fetchRange (client : Client) (session : Session σ) (target : ObjectRecord)
    (options : List ReadOption) (offset length : Int) (s : σ) : Except Fault Fetched × σ :=
  match checkRange offset length with
  | .error fault => (.error fault, s)
  | .ok (offset, length) => client.fetch session ⟨target, options, offset, length⟩ s

end RangeReader.Http

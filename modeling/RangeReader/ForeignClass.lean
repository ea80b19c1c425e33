/-!
# Classes of faults from outside

Faults from outside this library are those of an HTTP session, of the
connection below it, and of the running program. Nothing is known of one but
its class and its words. A class has a name and the names of the classes above
it, and answers two questions: whether a fault of the class is worth another
attempt (`isTransient`), and whether it is a failure of the connection
(`isConnectionFailure`).
-/

namespace RangeReader

/-- **Classes of faults of an HTTP session.** -/
inductive SessionClass where
  | request
  | invalidJson
  | status
  | connection
  | proxy
  | tls
  | timeout
  | connectTimeout
  | readTimeout
  | urlRequired
  | tooManyRedirects
  | missingScheme
  | invalidScheme
  | invalidUrl
  | invalidHeader
  | invalidProxyUrl
  | chunkedEncoding
  | contentDecoding
  | streamConsumed
  | retry
  | unrewindableBody
  deriving DecidableEq, Repr

/-- The classes, in order. -/
def SessionClass.all : List SessionClass :=
  [.request, .invalidJson, .status, .connection, .proxy, .tls, .timeout, .connectTimeout,
    .readTimeout, .urlRequired, .tooManyRedirects, .missingScheme, .invalidScheme, .invalidUrl,
    .invalidHeader, .invalidProxyUrl, .chunkedEncoding, .contentDecoding, .streamConsumed, .retry,
    .unrewindableBody]

/-- The name of a class. -/
def SessionClass.name : SessionClass → String
  | .request => "RequestException"
  | .invalidJson => "InvalidJSONError"
  | .status => "HTTPError"
  | .connection => "ConnectionError"
  | .proxy => "ProxyError"
  | .tls => "SSLError"
  | .timeout => "Timeout"
  | .connectTimeout => "ConnectTimeout"
  | .readTimeout => "ReadTimeout"
  | .urlRequired => "URLRequired"
  | .tooManyRedirects => "TooManyRedirects"
  | .missingScheme => "MissingSchema"
  | .invalidScheme => "InvalidSchema"
  | .invalidUrl => "InvalidURL"
  | .invalidHeader => "InvalidHeader"
  | .invalidProxyUrl => "InvalidProxyURL"
  | .chunkedEncoding => "ChunkedEncodingError"
  | .contentDecoding => "ContentDecodingError"
  | .streamConsumed => "StreamConsumedError"
  | .retry => "RetryError"
  | .unrewindableBody => "UnrewindableBodyError"

/-- The names of the classes above a class, nearest first. -/
def SessionClass.lineage (c : SessionClass) : List String :=
  let root := ["OSError", "Exception", "BaseException"]
  let session := "RequestException" :: root
  match c with
  | .request => root
  | .proxy => "ConnectionError" :: session
  | .tls => "ConnectionError" :: session
  | .connectTimeout => "ConnectionError" :: "Timeout" :: session
  | .readTimeout => "Timeout" :: session
  | .missingScheme => ["RequestException", "OSError", "ValueError", "Exception", "BaseException"]
  | .invalidScheme => ["RequestException", "OSError", "ValueError", "Exception", "BaseException"]
  | .invalidUrl => ["RequestException", "OSError", "ValueError", "Exception", "BaseException"]
  | .invalidHeader => ["RequestException", "OSError", "ValueError", "Exception", "BaseException"]
  | .invalidProxyUrl =>
    ["InvalidURL", "RequestException", "OSError", "ValueError", "Exception", "BaseException"]
  | .contentDecoding =>
    ["RequestException", "OSError", "HTTPError", "Exception", "BaseException"]
  | .streamConsumed => ["RequestException", "OSError", "TypeError", "Exception", "BaseException"]
  | _ => session

/-- **Classes of faults of the connection below a session.** -/
inductive WireClass where
  | http
  | protocol
  | decode
  | tls
  | timeout
  | timeoutState
  | connectTimeout
  | locationValue
  | response
  | responseNotChunked
  | invalidHeader
  | unrewindableBody
  | unreadableBody
  | locationParse
  | unknownScheme
  | unknownProxyScheme
  | unsupportedProxyScheme
  /-- Any other class under `http`, by its name, the names of the classes between
  the two and those of the classes that it is under besides. -/
  | other (name : String) (between besides : List String)
  deriving DecidableEq, Repr

/-- The named classes, in order. -/
def WireClass.all : List WireClass :=
  [.http, .protocol, .decode, .tls, .timeout, .timeoutState, .connectTimeout, .locationValue,
    .response, .responseNotChunked, .invalidHeader, .unrewindableBody, .unreadableBody,
    .locationParse, .unknownScheme, .unknownProxyScheme, .unsupportedProxyScheme]

/-- The name of a class. -/
def WireClass.name : WireClass → String
  | .http => "HTTPError"
  | .protocol => "ProtocolError"
  | .decode => "DecodeError"
  | .tls => "SSLError"
  | .timeout => "TimeoutError"
  | .timeoutState => "TimeoutStateError"
  | .connectTimeout => "ConnectTimeoutError"
  | .locationValue => "LocationValueError"
  | .response => "ResponseError"
  | .responseNotChunked => "ResponseNotChunked"
  | .invalidHeader => "InvalidHeader"
  | .unrewindableBody => "UnrewindableBodyError"
  | .unreadableBody => "BodyNotHttplibCompatible"
  | .locationParse => "LocationParseError"
  | .unknownScheme => "URLSchemeUnknown"
  | .unknownProxyScheme => "ProxySchemeUnknown"
  | .unsupportedProxyScheme => "ProxySchemeUnsupported"
  | .other name _ _ => name

/-- The names of the classes above a class, nearest first. -/
def WireClass.lineage (c : WireClass) : List String :=
  let root := ["Exception", "BaseException"]
  match c with
  | .http => root
  | .connectTimeout => "TimeoutError" :: "HTTPError" :: root
  | .locationValue => "ValueError" :: "HTTPError" :: root
  | .locationParse => "LocationValueError" :: "ValueError" :: "HTTPError" :: root
  | .unknownScheme => "LocationValueError" :: "ValueError" :: "HTTPError" :: root
  | .unknownProxyScheme =>
    "AssertionError" :: "URLSchemeUnknown" :: "LocationValueError" :: "ValueError" :: "HTTPError"
      :: root
  | .unsupportedProxyScheme => "ValueError" :: root
  | .responseNotChunked => "ProtocolError" :: "HTTPError" :: "ValueError" :: root
  | .other _ between besides => between ++ "HTTPError" :: besides ++ root
  | _ => "HTTPError" :: root

/-- The words of a fault of a class that is about a location or a scheme; the
other classes take the words given. -/
def WireClass.words (c : WireClass) (given : String) : String :=
  match c with
  | .locationParse => "Failed to parse: " ++ given
  | .unknownScheme => "Not supported URL scheme " ++ given
  | .unknownProxyScheme =>
    if given = "localhost" then "Proxy URL had no scheme, should start with http:// or https://"
    else "Proxy URL had unsupported scheme " ++ given ++ ", should use http:// or https://"
  | _ => given

/-- **Classes of faults of the running program.** -/
inductive ProgramClass where
  | value
  | key
  | system
  | runtime
  | timeout
  | connection
  /-- Any other class, by its name. -/
  | other (name : String)
  deriving DecidableEq, Repr

/-- The named classes, in order. -/
def ProgramClass.all : List ProgramClass :=
  [.value, .key, .system, .runtime, .timeout, .connection]

/-- The name of a class. -/
def ProgramClass.name : ProgramClass → String
  | .value => "ValueError"
  | .key => "KeyError"
  | .system => "OSError"
  | .runtime => "RuntimeError"
  | .timeout => "TimeoutError"
  | .connection => "ConnectionError"
  | .other name => name

/-- Families of other classes: the names of the classes above all of them,
and their own names. -/
def ProgramClass.families : List (List String × List String) :=
  [(["ArithmeticError"], ["FloatingPointError", "OverflowError", "ZeroDivisionError"]),
    (["LookupError"], ["IndexError"]),
    (["ValueError"], ["UnicodeError"]),
    (["RuntimeError"], ["NotImplementedError", "RecursionError"]),
    (["ImportError"], ["ModuleNotFoundError"]),
    (["NameError"], ["UnboundLocalError"]),
    (["SyntaxError"], ["IndentationError"]),
    (["IndentationError", "SyntaxError"], ["TabError"]),
    (["OSError"], ["BlockingIOError", "ChildProcessError", "FileExistsError", "FileNotFoundError",
      "InterruptedError", "IsADirectoryError", "NotADirectoryError", "PermissionError",
      "ProcessLookupError"]),
    (["ConnectionError", "OSError"], ["BrokenPipeError", "ConnectionAbortedError",
      "ConnectionRefusedError", "ConnectionResetError"]),
    (["Warning"], ["BytesWarning", "DeprecationWarning", "EncodingWarning", "FutureWarning",
      "ImportWarning", "PendingDeprecationWarning", "ResourceWarning", "RuntimeWarning",
      "SyntaxWarning", "UnicodeWarning", "UserWarning"])]

/-- The names of the classes above a class, nearest first. -/
def ProgramClass.lineage (c : ProgramClass) : List String :=
  let root := ["Exception", "BaseException"]
  match c with
  | .key => "LookupError" :: root
  | .timeout => "OSError" :: root
  | .connection => "OSError" :: root
  | .other "Exception" => ["BaseException"]
  | .other name => ((families.find? (·.2.contains name)).elim [] Prod.fst) ++ root
  | _ => root

/-- **Classes of faults from outside this library.** -/
inductive ForeignClass where
  /-- Of the HTTP session. -/
  | session (c : SessionClass)
  /-- Of the connection below it. -/
  | wire (c : WireClass)
  /-- Of the running program. -/
  | program (c : ProgramClass)
  deriving DecidableEq, Repr

/-- The name of a class. -/
def ForeignClass.name : ForeignClass → String
  | .session c => c.name
  | .wire c => c.name
  | .program c => c.name

/-- The names of the classes above a class, nearest first. -/
def ForeignClass.lineage : ForeignClass → List String
  | .session c => c.lineage
  | .wire c => c.lineage
  | .program c => c.lineage

/-- The words of a fault of a class, made with the words given. -/
def ForeignClass.words (c : ForeignClass) (given : String) : String :=
  match c with
  | .wire c => c.words given
  | _ => given

/-- Whether a fault of a class is worth another attempt: a connection that
could not be made or broke off, and an answer that did not come in time. -/
def ForeignClass.isTransient : ForeignClass → Bool
  | .session c => c ∈ [.connection, .proxy, .tls, .connectTimeout, .readTimeout, .chunkedEncoding]
  | .wire (.other _ between _) => WireClass.timeout.name ∈ between
  | .wire c => c ∈ [.timeout, .connectTimeout]
  | .program _ => false

/-- Whether a fault of a class is a failure of the connection. -/
def ForeignClass.isConnectionFailure : ForeignClass → Bool
  | .session c =>
    c ∈ [.connection, .proxy, .tls, .timeout, .connectTimeout, .readTimeout, .chunkedEncoding,
      .contentDecoding]
  | .wire c => c ≠ .unsupportedProxyScheme
  | .program _ => false

end RangeReader

import RangeReader.ForeignClass
import RangeReader.MessagePack.Fault
import RangeReader.ObjectRecord
import RangeReader.ReadOption

/-!
# Faults

Everything that can go wrong with a read. A fault says what happened, as a
cause with its data; the words are in `Fault.text`, and the short form in
which one fault is mentioned inside the text of another is in
`Fault.shown`.

Faults of this library form a small tree under one base class: a closed
channel, an argument that is refused, an object that changed while it was
read, a failed transport – of which four kinds are told apart by the answer
of the service – and a fetch that was given up. Two more are those of a loop of
attempts: the wish for another one, and a spent budget. A fault from outside is
named by its class (`ForeignClass`). Faults are told apart by two questions:
whether one is worth another attempt (`isTransient`), and whether it is a failure
of the connection, which the HTTP backend reports as a failed transport
(`isConnectionFailure`).
-/

namespace RangeReader

/-! ## Arguments -/

/-- The arguments that must be integers and not negative. -/
inductive Bound where
  /-- The position of a seek. -/
  | position
  /-- The limit of a read. -/
  | limit
  deriving DecidableEq, Repr

/-- The name of such an argument. -/
def Bound.name : Bound → String
  | .position => "Position"
  | .limit => "Limit"

/-- What is wrong with the bytes of a saved state. -/
inductive TokenFault where
  /-- The bytes are not those of a state. -/
  | format (fault : MessagePack.Fault)
  /-- An option has an unknown name. -/
  | unknownOption (name : String)
  deriving DecidableEq, Repr

/-- The message of a fault. -/
def TokenFault.message : TokenFault → String
  | .format fault => fault.message
  | .unknownOption name => Text.quoted name ++ " is not a valid RpcOption"

/-- **Why an argument is refused.** -/
inductive ArgumentFault where
  /-- It is no identity of an object. -/
  | identity (fault : ObjectIdFault)
  /-- It is not an integer. -/
  | notInteger (bound : Bound) (value : Value)
  /-- It is negative. -/
  | negative (bound : Bound) (n : Int)
  /-- The offset of a range is negative. -/
  | negativeOffset (n : Int)
  /-- The length of a range is not positive. -/
  | emptyRange (n : Int)
  /-- An option has no value and the object read gives it none. -/
  | unresolved (kind : OptionKind)
  /-- The bytes of a saved state are refused. -/
  | token (fault : TokenFault)
  /-- A reason given by others, in their words. -/
  | stated (words : Option String)

/-- The message of a refused argument. -/
def ArgumentFault.message : ArgumentFault → String
  | .identity fault => fault.message
  | .notInteger bound value => bound.name ++ " must be an integer, got: " ++ value.shown
  | .negative bound n => bound.name ++ " must be >= 0, got: " ++ toString n
  | .negativeOffset n => "Offset must be >= 0, got: " ++ toString n
  | .emptyRange n => "Length must be > 0, got: " ++ toString n
  | .unresolved kind => "Option '" ++ kind.name ++ "' requires a value"
  | .token fault => "Invalid captured state: " ++ fault.message
  | .stated words => words.getD ""

/-! ## Faults -/

/-- **Kinds of failed transport**, told apart by the answer of the
service. -/
inductive TransportKind where
  /-- Any other failure. -/
  | other
  /-- A failure that another attempt may not meet. -/
  | retryable
  /-- There is no such object. -/
  | notFound
  /-- A condition on the generation did not hold. -/
  | preconditionFailed
  deriving DecidableEq, Repr

/-- The name of the class of a failed transport. -/
def TransportKind.className : TransportKind → String
  | .other => "TransportError"
  | .retryable => "RetryableTransportError"
  | .notFound => "ObjectNotFoundError"
  | .preconditionFailed => "PreconditionFailedError"

/-- **What can go wrong with a read.** -/
inductive Fault where
  /-- The base class alone, with words given by others. -/
  | unspecified (words : Option String)
  /-- An operation on a closed channel, with words other than the usual ones
  where it was reported by others. -/
  | closedChannel (words : Option String)
  /-- An argument that is refused. -/
  | invalidArgument (cause : ArgumentFault)
  /-- The object changed while it was read: the tag of its content was
  expected to be one and is another. -/
  | modified (object : String) (expected actual : Option String)
  /-- A failed transport. -/
  | transport (kind : TransportKind) (status : Int) (words url : String)
  /-- A fetch that was given up, with the fault of the last attempt if it had
  one. -/
  | exhausted (last : Option Fault) (attempts : Int)
  /-- A wish for another attempt, whatever a policy says of it. -/
  | tryAgain (words : Option String)
  /-- The fault that a loop of attempts ends with when there are no more: the
  fault of its last attempt if it had one, how many there were, and the last one
  in words. -/
  | retriesSpent (last : Option Fault) (attempts : Int) (words : String)
  /-- Fields of a record that are wrong. -/
  | badRecord (faults : List FieldFault)
  /-- A key that cannot be sent. -/
  | badKey (fault : KeyFault)
  /-- A value of the wrong type where only its type matters. -/
  | mistyped
  /-- A number that has no representation where it is needed. -/
  | unrepresentable
  /-- Items nested beyond all bounds. -/
  | tooDeep
  /-- An operation that a file of this kind does not have. -/
  | unsupported (what : String)
  /-- An origin of a seek that does not exist. -/
  | unknownWhence (whence : Int)
  /-- An operation on a closed file. -/
  | closedFile
  /-- A text, or bytes, in which no number is written. -/
  | unreadableNumber (v : Value)
  /-- A number that is not a number, where an integer part is needed. -/
  | notANumber
  /-- A fault from outside. -/
  | foreign (c : ForeignClass) (words : Option String)
  deriving Inhabited

/-- A part of a message that may be absent. -/
def orNone (s : Option String) : String := s.getD "None"

namespace Fault

/-- The name of the class of a fault. -/
def className : Fault → String
  | .unspecified _ => "BlobChannelError"
  | .closedChannel _ => "ClosedChannelError"
  | .invalidArgument _ => "InvalidArgumentError"
  | .modified .. => "ExternalModificationError"
  | .transport kind .. => kind.className
  | .exhausted .. => "TransportExhaustedError"
  | .tryAgain _ => "TryAgain"
  | .retriesSpent .. => "RetryError"
  | .badRecord _ => "ValidationError"
  | .badKey (.notText _) => "TypeError"
  | .badKey .notAscii => "ValueError"
  | .badKey (.encoding _) => "Error"
  | .mistyped => "TypeError"
  | .unrepresentable => "OverflowError"
  | .tooDeep => "RecursionError"
  | .unsupported _ => "UnsupportedOperation"
  | .unknownWhence _ => "ValueError"
  | .closedFile => "ValueError"
  | .unreadableNumber _ => "ValueError"
  | .notANumber => "ValueError"
  | .foreign c _ => c.name

/-- The names of the classes above that of a fault, nearest first. -/
def lineage : Fault → List String
  | .unspecified _ => ["Exception", "BaseException"]
  | .closedChannel _ => ["BlobChannelError", "ValueError", "Exception", "BaseException"]
  | .invalidArgument _ => ["BlobChannelError", "ValueError", "Exception", "BaseException"]
  | .modified .. => ["BlobChannelError", "Exception", "BaseException"]
  | .transport .other .. => ["BlobChannelError", "Exception", "BaseException"]
  | .transport .. => ["TransportError", "BlobChannelError", "Exception", "BaseException"]
  | .exhausted .. => ["BlobChannelError", "Exception", "BaseException"]
  | .badRecord _ => ["ValueError", "Exception", "BaseException"]
  | .badKey (.encoding _) => ["ValueError", "Exception", "BaseException"]
  | .unrepresentable => ["ArithmeticError", "Exception", "BaseException"]
  | .tooDeep => ["RuntimeError", "Exception", "BaseException"]
  | .unsupported _ => ["OSError", "ValueError", "Exception", "BaseException"]
  | .foreign c _ => c.lineage
  | _ => ["Exception", "BaseException"]

/-- The argument a fault was made with, where that is one text: its words,
except that some faults can be made without any. -/
def argument? (f : Fault) (text : String) : Option String :=
  match f with
  | .unspecified words => words
  | .invalidArgument (.stated words) => words
  | .foreign _ words => words
  | .tryAgain words => words
  | .mistyped => none
  | .unrepresentable => none
  | .tooDeep => none
  | _ => some text

/-- A fault with a text as it is mentioned inside the words of another: its class
with what it was made with, where texts are in quotes. -/
def mention (f : Fault) (text : String) : String :=
  f.className ++ "(" ++ (match f with
    | .retriesSpent _ _ words => words
    | f => (f.argument? text).elim "" Text.quoted) ++ ")"

/-- **The words of a fault.** -/
def text : Fault → String
  | .unspecified words => words.getD ""
  | .closedChannel words => words.getD "I/O operation on closed channel."
  | .invalidArgument cause => cause.message
  | .modified object expected actual =>
    "Blob " ++ object ++ " was updated while reading (expected etag: " ++ orNone expected
      ++ ", got: " ++ orNone actual ++ ")"
  | .transport _ status words url =>
    "STATUS:" ++ toString status ++ ", MESSAGE:" ++ words ++ ", REQ_URL:" ++ url
  | .exhausted none attempts =>
    "Fetch failed after " ++ toString attempts ++ " attempt(s), giving up. Last error: None"
  | .exhausted (some last) attempts =>
    "Fetch failed after " ++ toString attempts ++ " attempt(s), giving up. Last error: "
      ++ last.mention last.text
  | .tryAgain words => words.getD ""
  | .retriesSpent _ _ words => "RetryError[" ++ words ++ "]"
  | .badRecord faults =>
    ", ".intercalate (faults.map fun f => f.field.getD "record" ++ ": " ++ f.problem.code)
  | .badKey (.notText typeName) =>
    "argument should be a bytes-like object or ASCII string, not " ++ Text.quoted typeName
  | .badKey .notAscii => "string argument should contain only ASCII characters"
  | .badKey (.encoding fault) => fault.text
  | .mistyped => ""
  | .unrepresentable => ""
  | .tooDeep => ""
  | .unsupported what => what
  | .unknownWhence whence => "Invalid whence value: " ++ toString whence
  | .closedFile => "I/O operation on closed file."
  | .unreadableNumber v => "could not convert string to float: " ++ v.shown
  | .notANumber => "cannot convert float NaN to integer"
  | .foreign (.program .key) (some words) => Text.quoted words
  | .foreign _ words => words.getD ""

/-- **A fault as it is mentioned inside a message.** -/
def shown (f : Fault) : String := f.mention f.text

/-- Whether a fault is worth another attempt. -/
def isTransient : Fault → Bool
  | .transport .retryable .. => true
  | .foreign c _ => c.isTransient
  | _ => false

/-- Whether a fault is a failure of the connection. -/
def isConnectionFailure : Fault → Bool
  | .foreign c _ => c.isConnectionFailure
  | _ => false

/-- The fault of an argument that is no identity. -/
def ofIdentity (f : ObjectIdFault) : Fault := .invalidArgument (.identity f)

/-- The fault of a conversion. -/
def ofConversion : ConversionFault → Fault
  | .identity f => ofIdentity f
  | .fields fs => .badRecord fs

end Fault

end RangeReader

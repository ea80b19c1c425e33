import RangeReader.ByteCount

/-!
# Events

What a reader reports while it works. An event is the thing that happened;
its line in a journal is `Event.line`, a level and a message.
-/

namespace RangeReader

/-- How much an event matters. -/
inductive Level where
  | debug
  | info
  | warning
  | error
  deriving DecidableEq, Repr

/-- The name of a level. -/
def Level.name : Level → String
  | .debug => "DEBUG"
  | .info => "INFO"
  | .warning => "WARNING"
  | .error => "ERROR"

/-- **What a reader reports.** -/
inductive Event where
  /-- A channel moves to a position. -/
  | seeking (object : String) (position : Nat)
  /-- A channel asks for a range. -/
  | fetching (length : Nat) (object : String) (offset : Nat)
  /-- A request is made for the bytes from `first` to `last`. -/
  | requesting (url : String) (first last : Nat)
  /-- An attempt failed, or gave no result, and another one follows after a
  delay in seconds. -/
  | attemptFailed (bucket name : String) (attempt : Nat) (cause : Option Fault) (delay : Binary64)
  /-- The last attempt failed, or gave no result. -/
  | gaveUp (bucket name : String) (attempts : Int)
  /-- The object changed while it was read. -/
  | modified (object : String) (expected actual : Option String)
  /-- An object was written to a destination. -/
  | downloaded (object : String) (count : Nat) (destination : String)

namespace Event

/-- The level of an event. -/
def level : Event → Level
  | .seeking .. => .debug
  | .fetching .. => .debug
  | .requesting .. => .debug
  | .attemptFailed .. => .warning
  | .gaveUp .. => .error
  | .modified .. => .error
  | .downloaded .. => .info

/-- The message of an event. -/
def message : Event → String
  | .seeking object position => "Seeking " ++ object ++ " to " ++ toString position
  | .fetching length object offset =>
    "Fetching " ++ toString length ++ " bytes of " ++ object ++ " at offset " ++ toString offset
  | .requesting url first last =>
    "GET " ++ url ++ " bytes=" ++ toString first ++ "-" ++ toString last
  | .attemptFailed bucket name attempt cause delay =>
    "Fetch of gs://" ++ bucket ++ "/" ++ name ++ " failed on attempt " ++ toString attempt ++ " ("
      ++ cause.elim "no result" Fault.className ++ "), retrying in " ++ delay.fixed 2 ++ "s"
  | .gaveUp bucket name attempts =>
    "Giving up on fetch of gs://" ++ bucket ++ "/" ++ name ++ " after " ++ toString attempts
      ++ " attempt(s)"
  | .modified object expected actual => (Fault.modified object expected actual).text
  | .downloaded object count destination =>
    "Downloaded " ++ object ++ " ("
      ++ (ByteCount.text? (Binary64.ofInt count)).getD "" ++ ") to " ++ destination

/-- **An event as a line of a journal.** -/
def line (e : Event) : String := e.level.name ++ " " ++ e.message

end Event

end RangeReader

import RangeReader.Event

/-!
# Retrying

An operation is tried until an attempt is not one to retry, or the budget of
attempts is spent. A retry policy says how many attempts there are, which
outcomes are retried and how long to wait in between; it has a hook that is
called before every wait, and two settings for a spent budget: it can raise
the last fault itself, or give a result of its own. An attempt may also ask for
another one by itself, and no policy refuses it while there are attempts left.
`RetryPolicy.run` is the loop that follows all of these.

A single operation of a reader does not leave the two settings to the
policy. It runs under `RetryPolicy.forOperation`, which is the policy with a
report before each wait and with a spent budget that stays apart from a fault
that is not retried: `RetryPolicy.operate` turns it into `Fault.exhausted`. It
knows a spent budget by the fault that tells of one, so it also turns such a
fault of another loop, which an attempt ran inside it, into its own.

A policy may be shared by any number of operations. `RetryPolicy.operateShared`
is one of them: it finds the policy in a list of all there are, and runs under a
copy that it adds to the list.
-/

namespace RangeReader

/-! ## Policies -/

/-- **A retry policy** for operations that give an `α` and change a
state `σ`. -/
structure RetryPolicy (α σ : Type) where
  /-- The number of attempts; there is always at least one. -/
  attempts : Nat
  /-- Whether an outcome is one to retry. -/
  retries : Except Fault α → Bool
  /-- The seconds to wait after an attempt, by its number. -/
  wait : Nat → Binary64
  /-- What is done before a wait, given the number of the attempt, its outcome
  and the seconds to wait. -/
  beforeSleep : Nat → Except Fault α → Binary64 → σ → σ
  /-- Whether a spent budget raises the last fault itself. -/
  reraise : Bool
  /-- The result in the place of a spent budget. -/
  fallback : Option α

/-- **How the attempts end.** -/
inductive Verdict (α : Type) where
  /-- With a result. -/
  | returned (result : α)
  /-- With a fault. -/
  | raised (fault : Fault)
  /-- With a spent budget: the last outcome and the number of attempts. -/
  | spent (last : Except Fault α) (attempts : Nat)

/-- The verdict of an outcome that is not retried. -/
def Verdict.ofOutcome {α : Type} : Except Fault α → Verdict α
  | .ok result => .returned result
  | .error fault => .raised fault

namespace RetryPolicy

variable {α σ : Type}

/-- Retries the faults of a set. -/
def onFaults (among : Fault → Bool) : Except Fault α → Bool
  | .error fault => among fault
  | .ok _ => false

/-- Retries results that are none, and no faults. -/
def onNone (isNone : α → Bool) : Except Fault α → Bool
  | .error _ => false
  | .ok result => isNone result

/-- Whether an outcome asks for another attempt by itself. -/
def asksAgain : Except Fault α → Bool
  | .error (.tryAgain _) => true
  | _ => false

/-- **Whether an outcome calls for another attempt**: it asks for one, or the
policy retries it. -/
def again (policy : RetryPolicy α σ) (outcome : Except Fault α) : Bool :=
  asksAgain outcome || policy.retries outcome

/-- A wait that doubles: `multiplier · 2^(k - 1)` after attempt `k`, no more
than `most` and no less than `least`. -/
def doubling (multiplier least most : Binary64) (k : Nat) : Binary64 :=
  let scaled := multiplier.mul (Binary64.ofInt (Nat.pow 2 (k - 1)))
  ((Binary64.ofInt 0).greatest least).greatest (scaled.least most)

/-- **The standard policy**: six attempts on faults worth another one. Its
waits are random from one second on; here each is the least of them. -/
def standard : RetryPolicy α σ where
  attempts := 6
  retries := onFaults Fault.isTransient
  wait _ := Binary64.ofInt 1
  beforeSleep _ _ _ s := s
  reraise := true
  fallback := none

/-! ## The attempts of an operation -/

/-- The verdict when the last attempt is one to retry: the fallback comes
first, then the last fault where it is to be raised. -/
def exhausted (policy : RetryPolicy α σ) (last : Except Fault α) (attempts : Nat) : Verdict α :=
  match policy.fallback, policy.reraise, last with
  | some result, _, _ => .returned result
  | none, true, .error fault => .raised fault
  | none, _, _ => .spent last attempts

/-- The attempts from number `k` on, with `left` more after it. -/
def loop (policy : RetryPolicy α σ) (attempt : σ → Except Fault α × σ) :
    (left k : Nat) → σ → Verdict α × σ
  | left, k, s =>
    match attempt s, left with
    | (outcome, s), 0 =>
      (if policy.again outcome then policy.exhausted outcome k else .ofOutcome outcome, s)
    | (outcome, s), left + 1 =>
      if policy.again outcome then
        policy.loop attempt left (k + 1) (policy.beforeSleep k outcome (policy.wait k) s)
      else (.ofOutcome outcome, s)

/-- **The attempts of an operation** under a policy. -/
def run (policy : RetryPolicy α σ) (attempt : σ → Except Fault α × σ) (s : σ) : Verdict α × σ :=
  policy.loop attempt (policy.attempts - 1) 1 s

/-! ## Operations of a reader -/

/-- The fault of an outcome, if it is one. -/
def faultOf? : Except Fault α → Option Fault
  | .error fault => some fault
  | .ok _ => none

/-- **A policy for one operation** on an object: every wait is reported before
the hook is called, and a spent budget neither raises the last fault nor has
a fallback. -/
def forOperation (policy : RetryPolicy α σ) (note : Event → σ → σ) (bucket name : String) :
    RetryPolicy α σ :=
  { policy with
    beforeSleep := fun k outcome delay s =>
      policy.beforeSleep k outcome delay
        (note (.attemptFailed bucket name k (faultOf? outcome) delay) s)
    reraise := false
    fallback := none }

/-- An operation that is given up, which is reported. -/
def giveUp (note : Event → σ → σ) (bucket name : String) (last : Option Fault) (attempts : Int)
    (s : σ) : Except Fault α × σ :=
  (.error (.exhausted last attempts), note (.gaveUp bucket name attempts) s)

/-- **What an operation gives by its verdict.** It is given up when the budget is
spent, and also on a fault that tells of a spent budget, whichever loop that was
the budget of. -/
def conclude (note : Event → σ → σ) (bucket name : String) :
    Verdict α × σ → Except Fault α × σ
  | (.returned result, s) => (.ok result, s)
  | (.spent last attempts, s) => giveUp note bucket name (faultOf? last) attempts s
  | (.raised (.retriesSpent last attempts _), s) => giveUp note bucket name last attempts s
  | (.raised fault, s) => (.error fault, s)

/-- **One operation on an object** under a policy. -/
def operate (policy : RetryPolicy α σ) (note : Event → σ → σ) (bucket name : String)
    (attempt : σ → Except Fault α × σ) (s : σ) : Except Fault α × σ :=
  conclude note bucket name ((policy.forOperation note bucket name).run attempt s)

/-- **One operation under a shared policy**, which has a place in the list of all
policies. The operation runs under a copy of it, made for this object, and the
copy is added to the list. -/
def operateShared (policies : List (RetryPolicy α σ)) (shared : Fin policies.length)
    (note : Event → σ → σ) (bucket name : String) (attempt : σ → Except Fault α × σ) (s : σ) :
    (Except Fault α × σ) × List (RetryPolicy α σ) :=
  let copy := (policies.get shared).forOperation note bucket name
  (conclude note bucket name (copy.run attempt s), policies ++ [copy])

end RetryPolicy

/-! ## Retries below a request -/

/-- **Retries of a single request by its status**, which the HTTP session
makes by itself before an answer reaches the reader. -/
structure StatusRetries where
  /-- How many in all. -/
  total : Int := 3
  /-- The factor of the wait, which doubles from one retry to the next. -/
  backoff : Binary64 := Binary64.ofInt 1
  /-- How many after a connection could not be made. -/
  connect : Nat := 0
  /-- How many after an answer did not come. -/
  read : Nat := 0
  /-- The statuses that are retried. -/
  statuses : List Nat := [408, 429, 500, 502, 503, 504]
  /-- The methods that are retried. -/
  methods : List String := ["HEAD", "GET", "PUT", "DELETE", "OPTIONS", "TRACE"]
  /-- Whether the last status is a fault of the session; otherwise the reader
  sees the answer. -/
  raiseOnStatus : Bool := false

/-- Whether a request is retried after a status. Methods are compared without
regard to case. -/
def StatusRetries.isRetry (r : StatusRetries) (method : String) (status : Int) : Bool :=
  r.methods.contains method.toUpper && r.statuses.any fun known => (known : Int) == status

end RangeReader

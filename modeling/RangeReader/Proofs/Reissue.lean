import RangeReader.Http.Client
import RangeReader.Proofs.Attempts

/-!
# Which requests are sent again

What comes of a GET is a fault of the session, or an answer with a status,
whose body may turn out to be unreadable. Three places have a say in whether
the GET is sent again: the client, which reports failures of the connection as
failed transports; the status, which decides of what kind a failed transport
is; and the policy, which retries what is transient. A fault may also ask for
another attempt by itself. `Passes` and `Ends` say what they make of it together:
an outcome passes, and the same GET is sent again, or it ends the fetch with a
result. No outcome does both, and none does neither (`passes_iff`) but the fault of
a spent budget, which no session has by itself: it comes of retrying inside an
attempt.

With this the attempts of a fetch are those of any operation with a script of
outcomes, and `reissued_exactly` is read off how they end.
-/

namespace RangeReader

/-! ## Failures of the network -/

/-- **The classes of failures of the network**, by the names of the classes that
they are or come under: a connection, a time that ran out, a body that breaks
off, and whatever goes wrong below a session. -/
def ForeignClass.IsNetworkError : ForeignClass → Prop
  -- the session has an `HTTPError` of its own, which is none and has none under it
  | .session c => "HTTPError" ∈ c.lineage
    ∨ ∃ name ∈ ["ConnectionError", "Timeout", "ChunkedEncodingError"], name ∈ c.name :: c.lineage
  | .wire c => "HTTPError" ∈ c.name :: c.lineage
  | .program _ => False

theorem ForeignClass.isConnectionFailure_iff (c : ForeignClass) :
    c.isConnectionFailure = true ↔ c.IsNetworkError := by
  unfold isConnectionFailure IsNetworkError
  cases c with
  | session c => cases c <;> decide
  | wire c =>
    cases c with
    | other name between besides => simp [WireClass.lineage]
    | _ => decide
  | program c => simp

/-- Classes of faults that are worth another attempt are those of failures of the
connection. -/
theorem ForeignClass.isConnectionFailure_of_isTransient {c : ForeignClass}
    (h : c.isTransient = true) : c.isConnectionFailure = true := by
  cases c with
  | session c => revert h; cases c <;> decide
  | wire c =>
    cases c with
    | other name between besides => rfl
    | _ => revert h; decide
  | program c => cases h

namespace Fault

/-- A failure of the network. -/
def IsNetworkError : Fault → Prop
  | .foreign c _ => c.IsNetworkError
  | _ => False

theorem isConnectionFailure_iff (fault : Fault) :
    fault.isConnectionFailure = true ↔ fault.IsNetworkError := by
  cases fault with
  | «foreign» c words => exact c.isConnectionFailure_iff
  | _ => exact ⟨fun h => Bool.noConfusion h, False.elim⟩

/-- **A fault that a policy retries**: a failed transport of the retryable kind. -/
def IsRetryable (fault : Fault) : Prop :=
  ∃ status words url, fault = .transport .retryable status words url

/-- **A fault that is a wish for another attempt.** -/
def AsksAgain (fault : Fault) : Prop := ∃ words, fault = .tryAgain words

/-- **A fault that tells of a spent budget** of attempts. -/
def TellsOfBudget (fault : Fault) : Prop :=
  ∃ last attempts words, fault = .retriesSpent last attempts words

/-- A transient fault is retryable, or from outside. -/
theorem isRetryable_of_isTransient {fault : Fault} (h : fault.isTransient = true)
    (hn : ¬ fault.IsNetworkError) : fault.IsRetryable := by
  cases fault with
  | transport kind status words url =>
    cases kind with
    | retryable => exact ⟨status, words, url, rfl⟩
    | other => cases h
    | notFound => cases h
    | preconditionFailed => cases h
  | «foreign» c words =>
    have hconnection : c.isConnectionFailure = true :=
      ForeignClass.isConnectionFailure_of_isTransient h
    exact absurd (c.isConnectionFailure_iff.mp hconnection) hn
  | _ => cases h

end Fault

namespace Http

variable {get : Get} {url : String} {fault : Fault}

theorem reported_of_network (h : fault.IsNetworkError) (url : String) :
    reported url fault = .transport .retryable 0 fault.text url :=
  if_pos (fault.isConnectionFailure_iff.mpr h)

theorem reported_of_other (h : ¬ fault.IsNetworkError) (url : String) :
    reported url fault = fault := if_neg (mt fault.isConnectionFailure_iff.mp h)

/-! ## Kinds of failure -/

/-- **The statuses that pass.** -/
def PassingStatus (status : Int) : Prop :=
  status = 408 ∨ status = 429 ∨ 500 ≤ status ∧ status < 600

/-- The statuses of a failure. -/
def FailedStatus (status : Int) : Prop := status < 200 ∨ 400 ≤ status

theorem not_failed_ok : ¬ FailedStatus statusOk := by
  unfold FailedStatus statusOk
  decide

theorem not_failed_partial : ¬ FailedStatus statusPartial := by
  unfold FailedStatus statusPartial
  decide

theorem contains_passingStatuses (status : Int) :
    passingStatuses.contains status = true ↔ status = 408 ∨ status = 429 := by
  show ([408, 429] : List Int).contains status = true ↔ _
  simp

theorem failureKind?_of_success {status : Int} (h : ¬ FailedStatus status) :
    failureKind? status = none := by
  unfold FailedStatus at h
  exact if_pos (by omega)

theorem failureKind?_of_failed {status : Int} (h : FailedStatus status) :
    ∃ kind, failureKind? status = some kind := by
  unfold FailedStatus at h
  unfold failureKind?
  rw [if_neg (by omega)]
  repeat' split
  all_goals exact ⟨_, rfl⟩

theorem failureKind?_of_passing {status : Int} (h : PassingStatus status) :
    failureKind? status = some .retryable := by
  unfold PassingStatus at h
  unfold failureKind?
  simp only [contains_passingStatuses]
  rw [if_neg (by omega), if_neg (by omega), if_neg (by omega), if_neg (by omega),
    if_pos (by omega)]

theorem failureKind?_of_other {status : Int} (h : FailedStatus status)
    (hpassing : ¬ PassingStatus status) (hnotFound : status ≠ 404)
    (hprecondition : status ≠ 412) : failureKind? status = some .other := by
  unfold FailedStatus at h
  unfold PassingStatus at hpassing
  unfold failureKind?
  simp only [contains_passingStatuses]
  rw [if_neg (by omega), if_neg hnotFound, if_neg hprecondition]
  by_cases hunknown : status < 400 ∨ 600 ≤ status
  · exact if_pos hunknown
  · rw [if_neg hunknown, if_neg (by omega)]

/-! ## What comes of a GET -/

/-- **The result of a GET** by what came of it. -/
def Get.result (get : Get) : Except Fault Response → Except Fault Fetched
  | .error fault => .error (reported get.url fault)
  | .ok r => (rangeOf get r).mapError (reported get.url)

/-- **The uses of the body** that a GET makes. -/
def Get.uses (get : Get) : Except Fault Response → List BodyUse
  | .error _ => []
  | .ok r => if r.status = statusNoRange then [] else [bodyUse get r]

/-- A fault that an outcome raises: by the session, or by a body that is looked
at. -/
inductive Raised : Except Fault Response → Fault → Prop where
  | session (fault : Fault) : Raised (.error fault) fault
  | body (status : Int) (headers : List (String × String)) (fault : Fault)
    (looked : status ≠ statusNoRange) : Raised (.ok ⟨status, headers, .error fault⟩) fault

/-- **An outcome that passes**, with the fault that stands for it. -/
inductive Passes (get : Get) : Except Fault Response → Fault → Prop where
  /-- A failure of the network. -/
  | network {outcome : Except Fault Response} {fault : Fault} (raised : Raised outcome fault)
    (isNetworkError : fault.IsNetworkError) :
    Passes get outcome (.transport .retryable 0 fault.text get.url)
  /-- A failed transport of the retryable kind. -/
  | retryable {outcome : Except Fault Response} {fault : Fault} (raised : Raised outcome fault)
    (isRetryable : fault.IsRetryable) : Passes get outcome fault
  /-- A fault that is a wish for another attempt. -/
  | asked {outcome : Except Fault Response} {fault : Fault} (raised : Raised outcome fault)
    (asksAgain : fault.AsksAgain) : Passes get outcome fault
  /-- A status that passes. -/
  | status {status : Int} (headers : List (String × String)) (body : List UInt8)
    (passing : PassingStatus status) :
    Passes get (.ok ⟨status, headers, .ok body⟩)
      (.transport .retryable status (Text.Utf8.decodeLossy body) get.url)

/-- **An outcome that ends a fetch**, with its result. -/
inductive Ends (get : Get) : Except Fault Response → Except Fault Fetched → Prop where
  /-- There is nothing in the range. The body is not looked at. -/
  | noRange (headers : List (String × String)) (body : Except Fault (List UInt8)) :
    Ends get (.ok ⟨statusNoRange, headers, body⟩) (.ok ⟨none, []⟩)
  /-- The whole object, of which the range is cut out. -/
  | whole (headers : List (String × String)) (body : List UInt8) :
    Ends get (.ok ⟨statusOk, headers, .ok body⟩)
      (.ok ⟨Response.etag? ⟨statusOk, headers, .ok body⟩, (body.drop get.offset).take get.length⟩)
  /-- The range, or what came with any other status of a success. -/
  | part {status : Int} (headers : List (String × String)) (body : List UInt8)
    (success : ¬ FailedStatus status) (not_whole : status ≠ statusOk) :
    Ends get (.ok ⟨status, headers, .ok body⟩)
      (.ok ⟨Response.etag? ⟨status, headers, .ok body⟩, body.take get.length⟩)
  /-- There is no such object. -/
  | notFound (headers : List (String × String)) (body : List UInt8) :
    Ends get (.ok ⟨404, headers, .ok body⟩)
      (.error (.transport .notFound 404 (Text.Utf8.decodeLossy body) get.url))
  /-- A condition did not hold. -/
  | preconditionFailed (headers : List (String × String)) (body : List UInt8) :
    Ends get (.ok ⟨412, headers, .ok body⟩)
      (.error (.transport .preconditionFailed 412 (Text.Utf8.decodeLossy body) get.url))
  /-- Any other failure. -/
  | failed {status : Int} (headers : List (String × String)) (body : List UInt8)
    (failure : FailedStatus status) (not_passing : ¬ PassingStatus status)
    (looked : status ≠ statusNoRange) (found : status ≠ 404) (held : status ≠ 412) :
    Ends get (.ok ⟨status, headers, .ok body⟩)
      (.error (.transport .other status (Text.Utf8.decodeLossy body) get.url))
  /-- Any other fault, unchanged. -/
  | raised {outcome : Except Fault Response} {fault : Fault} (raised : Raised outcome fault)
    (no_network : ¬ fault.IsNetworkError) (not_retryable : ¬ fault.IsRetryable)
    (not_asking : ¬ fault.AsksAgain) (no_budget : ¬ fault.TellsOfBudget) :
    Ends get outcome (.error fault)

variable {outcome : Except Fault Response} {result : Except Fault Fetched}

/-! ### The results -/

/-- An answer with a body gives its range. -/
theorem rangeOf_of_success {r : Response} {body : List UInt8} (hr : ¬ FailedStatus r.status)
    (hb : r.body = .ok body) : rangeOf get r = .ok ⟨r.etag?, cut get r.status body⟩ := by
  have hstatus : r.status ≠ statusNoRange := by
    intro h
    rw [h] at hr
    exact hr (.inr (by decide))
  unfold rangeOf Response.fault?
  rw [if_neg hstatus, failureKind?_of_success hr, hb]
  rfl

/-- A failed answer gives the failure, in the words of its body. -/
theorem rangeOf_of_failure {r : Response} {kind : TransportKind} {body : List UInt8}
    (hr : r.status ≠ statusNoRange) (hk : failureKind? r.status = some kind)
    (hb : r.body = .ok body) :
    rangeOf get r = .error (.transport kind r.status (Text.Utf8.decodeLossy body) get.url) := by
  unfold rangeOf Response.fault?
  rw [if_neg hr, hk, hb]
  rfl

/-- A body that cannot be read is a fault, whatever it is looked at for. -/
theorem rangeOf_of_unreadable {r : Response} (hr : r.status ≠ statusNoRange)
    (hb : r.body = .error fault) : rangeOf get r = .error fault := by
  unfold rangeOf Response.fault?
  rw [if_neg hr, hb]
  cases failureKind? r.status <;> rfl

/-- **An answer is accepted for its status**: that nothing is in the range, or
one of a success, whose body can be read. -/
theorem rangeOf_ok {r : Response} {answer : Fetched} (h : rangeOf get r = .ok answer) :
    (r.status = statusNoRange ∧ answer = ⟨none, []⟩)
      ∨ ¬ FailedStatus r.status ∧ ∃ body, r.body = .ok body
        ∧ answer = ⟨r.etag?, cut get r.status body⟩ := by
  by_cases hn : r.status = statusNoRange
  · unfold rangeOf at h
    rw [if_pos hn] at h
    cases h
    exact .inl ⟨hn, rfl⟩
  · right
    cases hb : r.body with
    | error fault =>
      rw [rangeOf_of_unreadable hn hb] at h
      cases h
    | ok body =>
      by_cases hf : FailedStatus r.status
      · obtain ⟨kind, hkind⟩ := failureKind?_of_failed hf
        rw [rangeOf_of_failure hn hkind hb] at h
        cases h
      · rw [rangeOf_of_success hf hb] at h
        cases h
        exact ⟨hf, body, rfl, rfl⟩

/-- What is raised is reported. -/
theorem Raised.result_eq (h : Raised outcome fault) :
    get.result outcome = .error (reported get.url fault) := by
  cases h with
  | session fault => rfl
  | body status headers fault looked =>
    show (rangeOf get ⟨status, headers, .error fault⟩).mapError (reported get.url) = _
    rw [rangeOf_of_unreadable looked rfl]
    rfl

/-- **Whether a result calls for another attempt**, under a policy that retries
what is transient. -/
def callsAgain (result : Except Fault Fetched) : Bool :=
  RetryPolicy.asksAgain result || RetryPolicy.onFaults Fault.isTransient result

theorem callsAgain_eq_false (not_transient : fault.isTransient = false)
    (not_asking : ¬ fault.AsksAgain) : callsAgain (.error fault) = false := by
  have hasks : RetryPolicy.asksAgain (.error fault : Except Fault Fetched) = false := by
    cases fault with
    | tryAgain words => exact absurd ⟨words, rfl⟩ not_asking
    | _ => rfl
  unfold callsAgain
  rw [hasks]
  exact not_transient

/-- **An outcome that passes** gives a fault that calls for another attempt. -/
theorem Passes.result_eq (h : Passes get outcome fault) :
    get.result outcome = .error fault ∧ (fault.IsRetryable ∨ fault.AsksAgain) := by
  cases h with
  | network raised isNetworkError =>
    rw [raised.result_eq, reported_of_network isNetworkError]
    exact ⟨rfl, .inl ⟨_, _, _, rfl⟩⟩
  | retryable raised isRetryable =>
    obtain ⟨status, words, url, rfl⟩ := isRetryable
    rw [raised.result_eq, reported_of_other id]
    exact ⟨rfl, .inl ⟨_, _, _, rfl⟩⟩
  | asked raised asksAgain =>
    obtain ⟨words, rfl⟩ := asksAgain
    rw [raised.result_eq, reported_of_other id]
    exact ⟨rfl, .inr ⟨_, rfl⟩⟩
  | @status status headers body passing =>
    have hlooked : status ≠ statusNoRange := by
      unfold PassingStatus at passing
      unfold statusNoRange
      omega
    show (rangeOf get ⟨status, headers, .ok body⟩).mapError (reported get.url) = _ ∧ _
    rw [rangeOf_of_failure hlooked (failureKind?_of_passing passing) rfl]
    exact ⟨rfl, .inl ⟨_, _, _, rfl⟩⟩

/-- **An outcome that ends a fetch** gives a result that calls for no other attempt
and tells of no budget. -/
theorem Ends.result_eq (h : Ends get outcome result) :
    get.result outcome = result ∧ callsAgain result = false
      ∧ RetryPolicy.budgetOf? result = none := by
  cases h with
  | noRange headers body => exact ⟨rfl, rfl, rfl⟩
  | whole headers body =>
    show (rangeOf get ⟨statusOk, headers, .ok body⟩).mapError (reported get.url) = _ ∧ _
    rw [rangeOf_of_success not_failed_ok rfl]
    exact ⟨rfl, rfl, rfl⟩
  | @part status headers body success not_whole =>
    show (rangeOf get ⟨status, headers, .ok body⟩).mapError (reported get.url) = _ ∧ _
    rw [rangeOf_of_success success rfl]
    refine ⟨?_, rfl, rfl⟩
    show Except.ok (Fetched.mk _ ((if status = statusOk then body.drop get.offset else body).take
      get.length)) = _
    rw [if_neg not_whole]
  | notFound headers body => exact ⟨rfl, rfl, rfl⟩
  | preconditionFailed headers body => exact ⟨rfl, rfl, rfl⟩
  | @failed status headers body failure not_passing looked found held =>
    show (rangeOf get ⟨status, headers, .ok body⟩).mapError (reported get.url) = _ ∧ _
    rw [rangeOf_of_failure looked (failureKind?_of_other failure not_passing found held) rfl]
    exact ⟨rfl, rfl, rfl⟩
  | @raised _ fault raised no_network not_retryable not_asking no_budget =>
    rw [raised.result_eq, reported_of_other no_network]
    refine ⟨rfl, callsAgain_eq_false ?_ not_asking, RetryPolicy.budgetOf?_eq_none ?_⟩
    · cases htransient : fault.isTransient with
      | false => rfl
      | true => exact absurd (Fault.isRetryable_of_isTransient htransient no_network) not_retryable
    · rintro last attempts words ⟨⟩
      exact no_budget ⟨last, attempts, words, rfl⟩

/-! ### No third way -/

/-- An exchange that gets an answer. -/
theorem exchange_of_send {σ : Type} {session : Session σ} {r : Response} {s s' : σ}
    (h : session.send get s = (.ok r, s')) :
    exchange session get s = ((rangeOf get r).mapError (reported get.url),
      if r.status = statusNoRange then s' else session.touch (bodyUse get r) s') := by
  unfold exchange
  rw [h]

/-- **What goes over a connection**: the GETs sent, the uses made of bodies and
the journal, all in order. -/
structure Traffic where
  /-- The GETs sent. -/
  sent : List Get
  /-- The uses made of bodies. -/
  uses : List BodyUse
  /-- The journal. -/
  journal : List Event

namespace Traffic

/-- **A session with a script**: every GET comes out as the script says. -/
def session (script : Nat → Except Fault Response) : Session Traffic where
  send get t := (script t.sent.length, { t with sent := t.sent ++ [get] })
  touch use t := { t with uses := t.uses ++ [use] }
  note event t := { t with journal := t.journal ++ [event] }

/-- **Traffic that went on** with `count` times the same GET. -/
structure Reissues (get : Get) (script : Nat → Except Fault Response) (before : Traffic)
    (count : Nat) (after : Traffic) : Prop where
  sent_eq : after.sent = before.sent ++ List.replicate count get
  uses_eq : after.uses = before.uses
    ++ (List.range count).flatMap fun i => get.uses (script (before.sent.length + i))

variable {script : Nat → Except Fault Response} {before t after : Traffic} {count : Nat}

/-- One more exchange. -/
theorem Reissues.exchange (h : Reissues get script before count t) :
    (exchange (session script) get t).1 = get.result (script (before.sent.length + count))
      ∧ Reissues get script before (count + 1) (exchange (session script) get t).2 := by
  have hlength : t.sent.length = before.sent.length + count := by
    rw [h.sent_eq, List.length_append, List.length_replicate]
  have hsent : t.sent ++ [get] = before.sent ++ List.replicate (count + 1) get := by
    rw [h.sent_eq, List.append_assoc, ← List.replicate_succ']
  have huses : t.uses ++ get.uses (script (before.sent.length + count)) = before.uses
      ++ (List.range (count + 1)).flatMap fun i => get.uses (script (before.sent.length + i)) := by
    rw [h.uses_eq, List.append_assoc, List.range_succ, List.flatMap_append, List.flatMap_singleton]
  unfold Http.exchange session
  dsimp only
  rw [hlength]
  revert huses
  cases script (before.sent.length + count) with
  | error fault =>
    intro huses
    rw [show get.uses (.error fault) = [] from rfl, List.append_nil] at huses
    exact ⟨rfl, hsent, huses⟩
  | ok r =>
    intro huses
    refine ⟨rfl, ?_⟩
    unfold Get.uses at huses
    dsimp only at huses ⊢
    by_cases hn : r.status = statusNoRange
    · rw [if_pos hn, List.append_nil] at huses
      rw [if_pos hn]
      exact ⟨hsent, huses⟩
    · rw [if_neg hn] at huses
      rw [if_neg hn]
      exact ⟨hsent, huses⟩

/-- Events have no part in the exchanges. -/
theorem Reissues.note (h : Reissues get script before count t) (event : Event) :
    Reissues get script before count ((session script).note event t) := ⟨h.sent_eq, h.uses_eq⟩

end Traffic

variable {client : Client} {request : RangeRequest} {policy : RetryPolicy Fetched Traffic}

/-- A GET that can be made is sent. -/
theorem fetch_of_get {σ : Type} {session : Session σ} (hget : client.get request = .ok get)
    (s : σ) :
    client.fetch session request s
      = exchange session get (session.note (.requesting (client.objectUrl request.target)
        request.offset (request.offset + request.length - 1)) s) := by
  unfold Client.fetch
  rw [hget]

/-- The range of a GET is that of the request. -/
theorem range_of_get (hget : client.get request = .ok get) :
    get.offset = request.offset ∧ get.length = request.length := by
  unfold Client.get at hget
  cases hheaders : client.headers request with
  | error fault =>
    rw [hheaders] at hget
    cases hget
  | ok headers =>
    rw [hheaders] at hget
    cases hget
    exact ⟨rfl, rfl⟩

/-- A key that cannot be sent ends a fetch before a GET is made. -/
theorem fetch_of_badKey {σ : Type} {session : Session σ} {fault : KeyFault}
    (hget : client.get request = .error fault) (s : σ) :
    client.fetch session request s
      = (.error (.badKey fault), session.note (.requesting (client.objectUrl request.target)
        request.offset (request.offset + request.length - 1)) s) := by
  unfold Client.fetch
  rw [hget]

/-- A client without a token. -/
def sampleClient : Client := ⟨"http://h/storage/v1", none, .null⟩

end Http

end RangeReader

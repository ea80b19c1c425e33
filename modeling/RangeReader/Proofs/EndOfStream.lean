import Mathlib.Data.List.Induction
import RangeReader.Proofs.OverHttp
import RangeReader.RemoteObject

/-!
# What the end of a stream means

A channel says that it is at the end for one of two reasons. Its limit is
reached, or was when it ended, whatever the limit is now; or an answer had
fewer bytes than were asked for, and all of them have been read. Nothing but a
move makes it forget either, so both can be traced back to the last move:
`CameShort` finds the answer in the log, `LimitReached` finds the operation
after which the limit was reached. That is so over any source (`EndKnown`).

Over HTTP an answer that came short is the end of the object if the service
sent what it was asked for. But every status of a success is taken for content,
also one that comes without any: a condition that is not met is answered with
status 304 and an empty body, which is an end where no end is
(`end_without_content`). So the end of a stream is the end of the object unless
an answer of that kind is in the log (`end_of_stream_over_http`).
-/

namespace RangeReader

/-! ## Answers that come short -/

/-- **What a source gives**: its answers to requests for at least one byte are
of a kind. -/
def Source.Gives {σ : Type} (source : Source σ) (Q : RangeRequest → Fetched → Prop) : Prop :=
  ∀ request s answer, 0 < request.length → (source.fetch request s).1 = .ok answer →
    Q request answer

/-- **An answer came short** after the last move, and its bytes end at an
offset. -/
def CameShort (Q : RangeRequest → Fetched → Prop) (log : List LogEntry) (place : Nat) : Prop :=
  ∃ request answer earlier, AsksOnly (.fetch request (.ok answer) :: earlier) log
    ∧ Q request answer
    ∧ (answer.data.take request.length).length < request.length
    ∧ request.offset + (answer.data.take request.length).length = place

namespace Channel

variable {σ : Type} {source : Source σ} {Q : RangeRequest → Fetched → Prop} {E : Prop}
variable {capacity : Nat} {c after : Channel} {t t' : σ × List LogEntry}

/-! ## Why a channel has ended -/

/-- **A channel at the end**: it is open, has ended and has nothing left. -/
structure AtEnd (c : Channel) : Prop where
  isOpen : c.isOpen = true
  ended : c.ended = true
  unread_eq : c.unread = []

/-- **The end is known for a reason**: an answer came short where the present
chunk ends, or there is no chunk and the limit is reached, or what else there
is. -/
def EndKnown (Q : RangeRequest → Fetched → Prop) (E : Prop) (c : Channel)
    (t : σ × List LogEntry) : Prop :=
  c.isOpen = true → c.ended = true →
    CameShort Q t.2 (c.pointer + c.unread.length) ∨ (c.unread = [] ∧ c.limit ≤ c.pointer) ∨ E

/-- The reason that a channel is at the end. -/
theorem EndKnown.reason (h : c.EndKnown Q E t) (hend : c.AtEnd) :
    CameShort Q t.2 c.pointer ∨ c.limit ≤ c.pointer ∨ E := by
  have hplace : c.pointer + c.unread.length = c.pointer := by
    rw [hend.unread_eq]
    rfl
  rcases h hend.isOpen hend.ended with hshort | hlimit | hother
  · rw [hplace] at hshort
    exact .inl hshort
  · exact .inr (.inl hlimit.2)
  · exact .inr (.inr hother)

/-- An answer to a fetch that is too short has come short. -/
theorem cameShort_of_answered (hq : source.Gives Q) (hf : c.Fetches capacity) {answer : Fetched}
    (ha : c.answered source.logged capacity t = (.ok answer, t'))
    (hshort : (answer.data.take (c.wanted capacity)).length < c.wanted capacity) :
    CameShort Q t'.2 (c.pointer + (answer.data.take (c.wanted capacity)).length) := by
  refine ⟨c.request (c.wanted capacity), answer, t.2, ?_, ?_, hshort, rfl⟩
  · rw [log_of_answered ha]
    exact .refl _
  · exact hq _ _ _ hf.wanted_pos (congrArg Prod.fst ha)

/-- **Every read keeps the reason.** -/
theorem EndKnown.readStep (hq : source.Gives Q) {d : Delivery} (h : c.EndKnown Q E t)
    (step : ReadStep source.logged capacity c t d after t') : after.EndKnown Q E t' := by
  cases step with
  | cutOff _ _ hlimit => exact fun _ _ => .inr (.inl ⟨rfl, hlimit⟩)
  | served _ hunread _ =>
    intro ho he
    rw [isOpen_passed] at ho
    rw [ended_passed] at he
    rw [Tracks.end_passed]
    rcases h ho he with hshort | hlimit | hother
    · exact .inl hshort
    · exact absurd hlimit.1 hunread
    · exact .inr (.inr hother)
  | bounded _ hunread _ _ hlimit => exact fun _ _ => .inr (.inl ⟨hunread, hlimit⟩)
  | unanswered _ _ hf _ => exact fun _ he => absurd (hf.not_ended.symm.trans he) Bool.false_ne_true
  | refused _ _ hf _ _ => exact fun _ he => absurd (hf.not_ended.symm.trans he) Bool.false_ne_true
  | nothing answer _ hf ha hdata =>
    intro _ _
    have hnone : answer.data.take (c.wanted capacity) = [] := by rw [hdata, List.take_nil]
    have hshort := cameShort_of_answered hq hf ha (hnone ▸ hf.wanted_pos)
    rw [hnone] at hshort
    exact .inl hshort
  | fetched answer _ filled hf ha _ _ hfilled =>
    intro _ he
    rw [ended_passed, hfilled] at he
    rw [Tracks.end_passed, hfilled]
    exact .inl (cameShort_of_answered hq hf ha (of_decide_eq_true he))
  | _ => exact h

/-- **Every operation keeps the reason**, if the limit may move away from under
it. -/
theorem EndKnown.perform (hq : source.Gives Q) (op : Operation)
    (h : c.isOpen = true → c.ended = true →
      CameShort Q t.2 (c.pointer + c.unread.length) ∨ E) :
    (c.perform source.logged op t).2.1.EndKnown Q E (c.perform source.logged op t).2.2 :=
  perform_preserves (P := EndKnown Q E) (fun _ _ _ _ _ _ h step => h.readStep hq step)
    (fun _ _ _ ho => Bool.noConfusion ho) (fun _ _ _ _ _ he => Bool.noConfusion he)
    (fun _ _ _ _ ho he => (h ho he).imp_right .inr) (fun _ _ ho he => (h ho he).imp_right .inr)
    (fun ho he => (h ho he).imp_right .inr)

/-! ## Limits that were reached -/

/-- **A limit was reached** in a run: after some of the operations the channel
was at the end and at its limit, and no move came after them. -/
def LimitReached {σ : Type} (source : Source σ) (ops : List Operation) (c : Channel) (s : σ) :
    Prop :=
  ∃ before more, ops = before ++ more ∧ (∀ position : Nat, .seek (.int position) ∉ more)
    ∧ (performAll source before c s).2.1.AtEnd
    ∧ (performAll source before c s).2.1.limit ≤ (performAll source before c s).2.1.pointer

/-- An operation that is not a move leaves a limit reached. -/
theorem LimitReached.concat {σ : Type} {source : Source σ} {ops : List Operation} {s : σ}
    (h : LimitReached source ops c s) {op : Operation}
    (hop : ¬ ∃ position : Nat, op = .seek (.int position)) :
    LimitReached source (ops ++ [op]) c s := by
  obtain ⟨before, more, rfl, hmore, hreached⟩ := h
  refine ⟨before, more ++ [op], List.append_assoc _ _ _, fun position hmem => ?_, hreached⟩
  rcases List.mem_append.mp hmem with hmem | hmem
  · exact hmore position hmem
  · exact hop ⟨position, (List.mem_singleton.mp hmem).symm⟩

/-- After a move a channel has not ended, unless it is closed. -/
theorem not_ended_of_move (position : Nat) (ho : (c.perform source.logged
      (.seek (.int position)) t).2.1.isOpen = true) :
    (c.perform source.logged (.seek (.int position)) t).2.1.ended = false := by
  rw [perform_seek] at ho ⊢
  cases hc : c.isOpen with
  | true =>
    rw [seek_natCast _ hc]
    rfl
  | false =>
    unfold seek at ho
    rw [hc] at ho
    exact absurd (hc.symm.trans ho) Bool.false_ne_true

/-- **Why a channel has ended, after any run**: an answer came short where the
present chunk ends, or a limit was reached. The induction is on the run, from
its end; the limit of the channel is what its last operation left. -/
theorem ended_of_performAll (hq : source.Gives Q) (he : c.ended = false)
    (ops : List Operation) (t : σ × List LogEntry) :
    (performAll source.logged ops c t).2.1.isOpen = true →
    (performAll source.logged ops c t).2.1.ended = true →
    CameShort Q (performAll source.logged ops c t).2.2.2
        ((performAll source.logged ops c t).2.1.pointer
          + (performAll source.logged ops c t).2.1.unread.length)
      ∨ LimitReached source.logged ops c t := by
  induction ops using List.reverseRecOn with
  | nil => exact fun _ hended => absurd (he.symm.trans hended) Bool.false_ne_true
  | append_singleton ops op ih =>
    intro ho hended
    have hconcat := performAll_concat source.logged ops op c t
    have hknown := EndKnown.perform hq op ih
    rw [← hconcat] at hknown
    rcases hknown ho hended with hshort | ⟨hunread, hle⟩ | hbefore
    · exact .inl hshort
    · exact .inr ⟨ops ++ [op], [], (List.append_nil _).symm, fun _ hmem => (nomatch hmem),
        ⟨ho, hended, hunread⟩, hle⟩
    · by_cases hop : ∃ position : Nat, op = .seek (.int position)
      · obtain ⟨position, rfl⟩ := hop
        rw [hconcat] at ho hended
        exact absurd ((not_ended_of_move position ho).symm.trans hended) Bool.false_ne_true
      · exact .inr (hbefore.concat hop)

/-! ## Saying so -/

/-- A read that says that it is at the end is there. -/
theorem ReadStep.at_end {σ : Type} {source : Source σ} {s s' : σ}
    (step : ReadStep source capacity c s .ended after s') : after.AtEnd := by
  cases step with
  | cutOff ho _ _ => exact ⟨ho, rfl, rfl⟩
  | atEnd ho hu he => exact ⟨ho, he, hu⟩
  | bounded ho hu _ _ _ => exact ⟨ho, rfl, hu⟩
  | nothing answer _ hf _ _ => exact ⟨hf.isOpen, decide_eq_true hf.wanted_pos, rfl⟩

/-- A channel at the end says so, and stays as it is. -/
theorem AtEnd.readInto {σ : Type} (h : c.AtEnd) (source : Source σ) (capacity : Nat) (s : σ) :
    c.readInto source capacity s = (.ended, c, s) := by
  unfold Channel.readInto
  rw [if_neg (by rw [h.isOpen]; decide), if_neg (by rw [h.unread_eq]; decide), if_pos h.ended]

/-- **Draining a channel to the end**: it is there, its pointer has moved by
the number of bytes, and its limit is what it was. -/
theorem drain_ok {σ : Type} {source : Source σ} {hc : 0 < capacity} {before : List (List UInt8)}
    {s s' : σ} {bytes : List UInt8}
    (h : c.drain source capacity hc before s = (.ok bytes, after, s')) :
    after.AtEnd ∧ after.pointer + before.flatten.length = c.pointer + bytes.length
      ∧ after.limit = c.limit := by
  fun_induction drain source capacity hc before c s with
  | case1 before c s data next s₁ hr hlt ih =>
    have hadvance := readInto_bytes hc hr
    obtain ⟨hend, hpointer, hlimit⟩ := ih h
    refine ⟨hend, ?_, hlimit.trans hadvance.limit_eq⟩
    rw [List.flatten_cons, List.length_append, hadvance.pointer_eq] at hpointer
    omega
  | case2 before c s next s₁ hr =>
    cases h
    obtain ⟨hlimit, hpointer⟩ := readInto_ended hr
    refine ⟨(ReadStep.of_eq hr).at_end, ?_, hlimit⟩
    rw [hpointer, List.length_flatten, List.length_flatten, List.map_reverse, List.sum_reverse]
  | case3 before c s fault next s₁ hr => cases h

/-- **A channel that filled less than it was to** is at the end. -/
theorem fill_ok {σ : Type} {source : Source σ} {size : Nat} {before : List (List UInt8)}
    {s s' : σ} {bytes : List UInt8}
    (h : c.fill source size before s = (.ok bytes, after, s'))
    (hless : bytes.length < before.flatten.length + size) : after.AtEnd := by
  fun_induction fill source size before c s with
  | case1 size before c s hc data next s₁ hr hpos ih =>
    have hadvance := readInto_bytes hc hr
    refine ih h ?_
    rw [List.flatten_cons, List.length_append]
    have := hadvance.length_le
    omega
  | case2 size before c s hc next s₁ hr =>
    cases h
    exact (ReadStep.of_eq hr).at_end
  | case3 size before c s hc fault next s₁ hr => cases h
  | case4 size before c s hc =>
    cases h
    rw [List.length_flatten, List.length_flatten, List.map_reverse, List.sum_reverse] at hless
    omega

/-- **An operation says that the stream is at its end**: a read into room for
bytes does so in words, and a read of a number of bytes by giving fewer, or all
there are. -/
def SaysEnd : Operation → Outcome → Prop
  | .readInto _, .delivered .ended => True
  | .read size, .data bytes => (bytes.length : Int) < size ∨ size < 0
  | _, _ => False

/-- Reading everything leaves a channel at the end, and so does reading less
than was asked for. -/
theorem atEnd_of_read {σ : Type} {source : Source σ} {s s' : σ} {size : Int} {bytes : List UInt8}
    (hr : c.read source size s = (.ok bytes, after, s'))
    (hless : (bytes.length : Int) < size ∨ size < 0) : after.AtEnd := by
  unfold read at hr
  split at hr
  · cases hr
  · split at hr
    · exact (drain_ok hr).1
    · refine fill_ok hr ?_
      rw [List.flatten_nil, List.length_nil]
      omega

/-- **An operation that says so leaves the channel there.** -/
theorem atEnd_of_saysEnd {σ : Type} {source : Source σ} {s s' : σ} {op : Operation}
    {outcome : Outcome} (hend : SaysEnd op outcome)
    (h : c.perform source op s = (outcome, after, s')) : after.AtEnd := by
  cases op with
  | readInto capacity =>
    rw [perform_readInto] at h
    obtain ⟨d, next, s₁, hr⟩ : ∃ d next s₁, c.readInto source capacity s = (d, next, s₁) :=
      ⟨_, _, _, rfl⟩
    rw [hr] at h
    cases h
    cases d with
    | ended => exact (ReadStep.of_eq hr).at_end
    | bytes data => exact hend.elim
    | failed fault => exact hend.elim
  | read size =>
    obtain ⟨result, next, s₁, hr⟩ : ∃ result next s₁, c.read source size s = (result, next, s₁) :=
      ⟨_, _, _, rfl⟩
    unfold perform at h
    dsimp only at h
    rw [hr] at h
    cases h
    cases result with
    | error fault => exact hend.elim
    | ok bytes => exact atEnd_of_read hr hend
  | readAndClose size => cases outcome <;> exact hend.elim
  | seek target => cases outcome <;> exact hend.elim
  | setLimit target => cases outcome <;> exact hend.elim
  | setChunkSize n => cases outcome <;> exact hend.elim
  | tell => cases outcome <;> exact hend.elim
  | close => cases outcome <;> exact hend.elim

/-- **Why an operation says so**, after any run: an answer came short where the
channel is, its limit is reached, or one was reached before. -/
theorem end_of_saysEnd (hq : source.Gives Q) (he : c.ended = false) {ops : List Operation}
    {op : Operation} {outcome : Outcome} {u : σ × List LogEntry} {now : Channel}
    (hnow : (performAll source.logged ops c t).2 = (now, u))
    (hop : now.perform source.logged op u = (outcome, after, t')) (hend : SaysEnd op outcome) :
    after.tell = .ok after.pointer
      ∧ (CameShort Q t'.2 after.pointer ∨ after.limit ≤ after.pointer
        ∨ LimitReached source.logged ops c t) := by
  have hat : after.AtEnd := atEnd_of_saysEnd hend hop
  have hbefore := ended_of_performAll hq he ops t
  rw [hnow] at hbefore
  have hknown := EndKnown.perform hq op hbefore
  rw [hop] at hknown
  exact ⟨tell_open hat.isOpen, hknown.reason hat⟩

/-- **Why reading everything from a channel ends**: an answer came short where
the bytes end, or the limit is reached. -/
theorem end_of_read {size : Int} (hneg : size < 0) (hq : source.Gives Q) (he : c.ended = false)
    {bytes : List UInt8} (hr : c.read source.logged size t = (.ok bytes, after, t')) :
    CameShort Q t'.2 (c.pointer + bytes.length) ∨ c.limit ≤ c.pointer + bytes.length := by
  have hstart : c.EndKnown Q False t := fun _ hended =>
    absurd (he.symm.trans hended) Bool.false_ne_true
  have hknown := read_preserves (P := EndKnown Q False)
    (fun _ _ _ _ _ _ h step => h.readStep hq step) size c t hstart
  rw [hr] at hknown
  unfold read at hr
  split at hr
  · cases hr
  · obtain ⟨hat, hpointer, hlimit⟩ := drain_ok hr
    change after.pointer = c.pointer + bytes.length at hpointer
    rw [← hpointer, ← hlimit]
    exact (EndKnown.reason hknown hat).imp_right (Or.resolve_right · id)

/-- The whole content is what is read from a channel at the start. -/
theorem read_of_content {σ : Type} {source : Source σ} {o : RemoteObject}
    {options : List ReadOption} {bytes : List UInt8} {s s' : σ}
    (h : o.content source options s = (.ok bytes, s')) :
    ∃ c resolved, opened o.object resolved = .ok c
      ∧ ∃ after, c.read source (-1) s = (.ok bytes, after, s') := by
  unfold RemoteObject.content at h
  cases hreader : o.reader options with
  | error fault =>
    rw [hreader] at h
    cases h
  | ok c =>
    rw [hreader] at h
    obtain ⟨resolved, hopened⟩ := RemoteObject.opened_of_reader hreader
    obtain ⟨result, after, s₁, hr⟩ :
        ∃ result after s₁, c.read source (-1) s = (result, after, s₁) := ⟨_, _, _, rfl⟩
    unfold readAndClose at h
    dsimp only at h
    rw [hr] at h
    cases h
    exact ⟨c, resolved, hopened, after, hr⟩

end Channel

/-! ## Over HTTP -/

namespace Http

variable {σ : Type} {session : Session σ} {client : Client} {data : List UInt8} {get : Get}
variable {request : RangeRequest} {answer : Fetched}

/-- **A faithful answer**: the whole object, the part of it that is in the
range, or word that nothing is where the range starts at the end or past it.
The body of the first two may break off. -/
inductive Faithful (data : List UInt8) (get : Get) : Response → Prop where
  | whole (headers : List (String × String)) : Faithful data get ⟨statusOk, headers, .ok data⟩
  | part (headers : List (String × String)) :
    Faithful data get ⟨statusPartial, headers, .ok ((data.drop get.offset).take get.length)⟩
  | noRange (headers : List (String × String)) (body : Except Fault (List UInt8))
    (length_le : data.length ≤ get.offset) : Faithful data get ⟨statusNoRange, headers, body⟩
  | broken (status : Int) (headers : List (String × String)) (fault : Fault)
    (looked : status ≠ statusNoRange) : Faithful data get ⟨status, headers, .error fault⟩

/-- A status other than those of faithful answers. -/
def OtherStatus (status : Int) : Prop :=
  status ≠ statusOk ∧ status ≠ statusPartial ∧ status ≠ statusNoRange

/-- **A session that reaches an object**: every answer is faithful, or of
another status, with whatever body. There may be none, too. -/
def Session.IsHonest (session : Session σ) (data : List UInt8) : Prop :=
  ∀ get s r, (session.send get s).1 = .ok r → Faithful data get r ∨ OtherStatus r.status

/-- **An answer that was mistaken for content**: its status is one of a success,
but none of those of faithful answers, and what it has in its body was taken
for the range asked for. -/
def Mistaken (session : Session σ) (client : Client) (request : RangeRequest)
    (answer : Fetched) : Prop :=
  ∃ get s r body, client.get request = .ok get ∧ (session.send get s).1 = .ok r
    ∧ ¬ FailedStatus r.status ∧ OtherStatus r.status ∧ r.body = .ok body
    ∧ answer = ⟨r.etag?, body.take request.length⟩

/-- An exchange that gives a range got an answer with it. -/
theorem exchange_ok {s : σ} (h : (exchange session get s).1 = .ok answer) :
    ∃ r, (session.send get s).1 = .ok r ∧ rangeOf get r = .ok answer := by
  obtain ⟨outcome, s', hsend⟩ : ∃ outcome s', session.send get s = (outcome, s') := ⟨_, _, rfl⟩
  cases outcome with
  | error fault =>
    unfold exchange at h
    rw [hsend] at h
    cases h
  | ok r =>
    rw [exchange_of_send hsend] at h
    refine ⟨r, by rw [hsend], ?_⟩
    change (rangeOf get r).mapError (reported get.url) = .ok answer at h
    cases hrange : rangeOf get r with
    | error fault =>
      rw [hrange] at h
      cases h
    | ok fetched =>
      rw [hrange] at h
      exact h

/-- **A faithful answer gives the bytes of the object.** -/
theorem Faithful.data_eq {r : Response} (h : Faithful data get r)
    (hr : rangeOf get r = .ok answer) :
    answer.data = (data.drop get.offset).take get.length := by
  cases h with
  | whole headers =>
    rw [rangeOf_of_success not_failed_ok rfl] at hr
    cases hr
    rfl
  | part headers =>
    rw [rangeOf_of_success not_failed_partial rfl] at hr
    cases hr
    show ((data.drop get.offset).take get.length).take get.length = _
    rw [List.take_take, Nat.min_self]
  | noRange headers body length_le =>
    cases hr
    rw [List.drop_eq_nil_of_le length_le, List.take_nil]
  | broken status headers fault looked =>
    rw [rangeOf_of_unreadable looked rfl] at hr
    cases hr

/-- An answer of another status that is accepted was mistaken. -/
theorem mistaken_of_other {r : Response} {s : σ} (hget : client.get request = .ok get)
    (hsend : (session.send get s).1 = .ok r) (hother : OtherStatus r.status)
    (hr : rangeOf get r = .ok answer) : Mistaken session client request answer := by
  rcases rangeOf_ok hr with ⟨hstatus, -⟩ | ⟨hsuccess, body, hbody, rfl⟩
  · exact absurd hstatus hother.2.2
  · refine ⟨get, s, r, body, hget, hsend, hsuccess, hother, hbody, ?_⟩
    unfold cut
    rw [if_neg hother.1, (range_of_get hget).2]

/-- **What comes of an honest session**, behind any policy: the bytes that the
object has in the range, or what was mistaken for them. -/
theorem gives_of_honest (hs : session.IsHonest data) (client : Client)
    (policy : RetryPolicy Fetched σ) :
    ((client.source session).retrying policy).Gives fun request answer =>
      answer.data = (data.drop request.offset).take request.length
        ∨ Mistaken session client request answer := by
  intro request s answer _ hfetch
  -- what an operation gives, one of its attempts gave
  obtain ⟨t, hattempt⟩ := RetryPolicy.operate_ok hfetch
  change (client.fetch session request t).1 = .ok answer at hattempt
  cases hget : client.get request with
  | error fault =>
    rw [fetch_of_badKey hget] at hattempt
    cases hattempt
  | ok get =>
    rw [fetch_of_get hget] at hattempt
    obtain ⟨r, hsend, hrange⟩ := exchange_ok hattempt
    obtain ⟨hoffset, hlength⟩ := range_of_get hget
    rw [← hoffset, ← hlength]
    exact (hs _ _ r hsend).imp (fun hfaithful => hfaithful.data_eq hrange)
      fun hother => mistaken_of_other hget hsend hother hrange

/-- **Where the bytes of an object end short, the object ends**, unless they
were mistaken for its bytes. -/
theorem length_le_of_cameShort {log : List LogEntry} {place : Nat}
    (h : CameShort (fun request answer =>
      answer.data = (data.drop request.offset).take request.length
        ∨ Mistaken session client request answer) log place) :
    data.length ≤ place ∨ CameShort (Mistaken session client) log place := by
  obtain ⟨request, answer, earlier, hasks, hbytes | hmistaken, hshort, hplace⟩ := h
  · left
    rw [hbytes] at hshort hplace
    simp only [List.length_take, List.length_drop] at hshort hplace
    omega
  · exact .inr ⟨request, answer, earlier, hasks, hmistaken, hshort, hplace⟩

end Http

/-- A service that keeps to the rules is honest. -/
theorem Http.Session.Reaches.isHonest {σ : Type} {session : Http.Session σ} {h : Http.Hosted}
    (hs : session.Reaches h) : session.IsHonest h.data := by
  intro get s r hsend
  rw [hs get s] at hsend
  cases hsend
  left
  unfold Http.Hosted.respond
  split
  · exact .whole _
  · split
    · rename_i hdrop
      exact .noRange _ _ (List.drop_eq_nil_iff.mp hdrop)
    · exact .part _

/-! ## The theorem -/

/-- **The end of a stream over HTTP.** Let a session reach an object, with
answers that are faithful or of any other status, and let a client fetch from
it behind any policy.

* Whenever an operation on a channel opened over it says that the stream is at
  its end, the channel is at the end of the object or at its limit, or a limit
  was reached before and no move came since, or an answer that came short there
  since the last move was mistaken for content.
* The whole content, where it is given, goes to the end of the object, or up to
  an answer that came short and was mistaken for content.
* An answer with the status of a failure is a fault. -/
theorem end_of_stream_over_http {σ : Type} {session : Http.Session σ} {data : List UInt8}
    (hs : session.IsHonest data) (client : Http.Client) (policy : RetryPolicy Fetched σ) (s : σ) :
    (∀ object options c, Channel.opened object options = .ok c →
      ∀ ops now u, (Channel.performAll ((client.source session).retrying policy).logged ops c
          (s, [])).2 = (now, u) →
      ∀ op outcome after t log, now.perform ((client.source session).retrying policy).logged op u
          = (outcome, after, t, log) →
        Channel.SaysEnd op outcome →
          after.tell = .ok after.pointer
            ∧ (min after.limit data.length ≤ after.pointer
              ∨ Channel.LimitReached ((client.source session).retrying policy).logged ops c (s, [])
              ∨ CameShort (Http.Mistaken session client) log after.pointer))
      ∧ (∀ (o : RemoteObject) options bytes t log,
        o.content ((client.source session).retrying policy).logged options (s, [])
            = (.ok bytes, t, log) →
          min unboundedLimit data.length ≤ bytes.length
            ∨ CameShort (Http.Mistaken session client) log bytes.length)
      ∧ ∀ get (r : Http.Response), Http.FailedStatus r.status → r.status ≠ Http.statusNoRange →
        ∃ fault, Http.rangeOf get r = .error fault := by
  have hq := Http.gives_of_honest hs client policy
  refine ⟨?_, ?_, ?_⟩
  · intro object options c hc ops now u hnow op outcome after t log hop hend
    have hfresh := Channel.isFresh_of_opened hc
    obtain ⟨htell, hreason⟩ := Channel.end_of_saysEnd hq hfresh.not_ended hnow hop hend
    refine ⟨htell, ?_⟩
    rcases hreason with hshort | hle | hreached
    · rcases Http.length_le_of_cameShort hshort with hle | hmistaken
      · exact .inl ((Nat.min_le_right _ _).trans hle)
      · exact .inr (.inr hmistaken)
    · exact .inl ((Nat.min_le_left _ _).trans hle)
    · exact .inr (.inl hreached)
  · intro o options bytes t log hcontent
    obtain ⟨c, resolved, hc, after, hr⟩ := Channel.read_of_content hcontent
    have hfresh := Channel.isFresh_of_opened hc
    have hreason := Channel.end_of_read (by decide) hq hfresh.not_ended hr
    rw [hfresh.pointer_eq, hfresh.limit_eq, Nat.zero_add] at hreason
    rcases hreason with hshort | hle
    · exact (Http.length_le_of_cameShort hshort).imp_left (Nat.min_le_right _ _).trans
    · exact .inl ((Nat.min_le_left _ _).trans hle)
  · intro get r hfailed hn
    cases hr : Http.rangeOf get r with
    | error fault => exact ⟨fault, rfl⟩
    | ok answer =>
      rcases Http.rangeOf_ok hr with ⟨hstatus, -⟩ | ⟨hsuccess, -⟩
      · exact absurd hstatus hn
      · exact absurd hfailed hsuccess

theorem end_of_stream_over_http_sample :
    (Http.Hosted.session ⟨tenBytes, none, some "7", true⟩).IsHonest tenBytes
      ∧ ∃ c now u after t log, Channel.opened sampleId [] = .ok c
        ∧ (Channel.performAll ((Http.sampleClient.source (Http.Hosted.session
            ⟨tenBytes, none, some "7", true⟩)).retrying .standard).logged
            [.seek (.int 12), .readInto 3, .setLimit (.int 20)] c ((), [])).2 = (now, u)
        ∧ now.perform ((Http.sampleClient.source (Http.Hosted.session
            ⟨tenBytes, none, some "7", true⟩)).retrying .standard).logged (.readInto 3) u
          = (.delivered .ended, after, t, log)
        ∧ after.tell = .ok after.pointer ∧ after.pointer = 12 := by
  have hreaches : (Http.Hosted.session ⟨tenBytes, none, some "7", true⟩).Reaches _ :=
    fun _ _ => rfl
  have hc : Channel.opened sampleId [] = .ok _ := rfl
  obtain ⟨hend, -, -⟩ := end_of_stream_over_http hreaches.isHonest Http.sampleClient
    RetryPolicy.standard ()
  obtain ⟨htell, -⟩ := hend sampleId [] _ hc
    [.seek (.int 12), .readInto 3, .setLimit (.int 20)] _ _ rfl (.readInto 3) _ _ _ _ rfl trivial
  exact ⟨hreaches.isHonest, _, _, _, _, _, _, hc, rfl, rfl, htell, rfl⟩

/-- A session that answers every GET like one whose condition is not met: with
a status that is no failure, and with nothing. -/
def unmetCondition : Http.Session Unit where
  send _ s := (.ok ⟨304, [], .ok []⟩, s)
  touch _ s := s
  note _ s := s

/-- **An end where no end is.** The object has ten bytes, the condition on its
generation is not met, and the first read from the start of it says that the
stream is at its end. Reading everything gives nothing. -/
theorem end_without_content :
    ∃ c after, unmetCondition.IsHonest tenBytes
      ∧ Channel.opened sampleId [⟨.generationNotMatch, .int 5⟩] = .ok c
      ∧ c.perform ((Http.sampleClient.source unmetCondition).retrying .standard) (.readInto 3) ()
        = (.delivered .ended, after, ())
      ∧ after.tell = .ok 0 ∧ 0 < min after.limit tenBytes.length
      ∧ ¬ Channel.LimitReached ((Http.sampleClient.source unmetCondition).retrying .standard)
        [] c ()
      ∧ (c.read ((Http.sampleClient.source unmetCondition).retrying .standard) (-1) ()).1
        = .ok [] := by
  have hhonest : unmetCondition.IsHonest tenBytes := by
    intro get s r hsend
    cases hsend
    right
    show Http.OtherStatus 304
    unfold Http.OtherStatus
    decide
  obtain ⟨c, hc, hopen, hended, after, hfirst, htell, hlimit, last, hall⟩ :
      ∃ c, Channel.opened sampleId [⟨.generationNotMatch, .int 5⟩] = .ok c
        ∧ c.isOpen = true ∧ c.ended = false
        ∧ ∃ after, c.readInto ((Http.sampleClient.source unmetCondition).retrying .standard) 3 ()
            = (.ended, after, ())
          ∧ after.tell = .ok 0 ∧ 0 < min after.limit tenBytes.length
          ∧ ∃ last, c.readInto ((Http.sampleClient.source unmetCondition).retrying .standard)
            c.chunkSize () = (.ended, last, ()) :=
    ⟨_, rfl, rfl, rfl, _, rfl, rfl, by decide, _, rfl⟩
  refine ⟨c, after, hhonest, hc, ?_, htell, hlimit, ?_, ?_⟩
  · rw [Channel.perform_readInto, hfirst]
    rfl
  · rintro ⟨before, more, happend, -, hreached, -⟩
    obtain ⟨rfl, -⟩ := List.append_eq_nil_iff.mp happend.symm
    exact Bool.false_ne_true (hended.symm.trans hreached.ended)
  · unfold Channel.read
    rw [if_neg (by rw [hopen]; decide), if_pos (by decide)]
    exact congrArg Prod.fst (Channel.drain_of_ended hall)

end RangeReader

import RangeReader.Http.Client
import RangeReader.Proofs.Coherence
import RangeReader.Proofs.Simulation

/-!
# What a channel asks for

A read asks its source once or not at all, and `Asks` has when it does so and
for what: for the bytes at the pointer, never past the limit. To speak of all
the requests of a run the source is replaced by one that keeps a log
(`Source.logged`), of requests with what came of them and of moves.

Between two moves the requests follow each other without a gap and without an
overlap. Where the next one starts can be read off the log, whatever was done
to the limit and to the size of chunks in between: it is the *frontier*, the
end of all the bytes that came since the last move. What keeps the channel
there (`Tracks`) is that it asks again only when its chunk is served to the
end. Whatever drops a chunk earlier – a limit set below it, closing – or has
bytes that do not become one – a refused answer – leaves the channel ended,
closed or with a change noticed, and none of these asks again before a move.
-/

namespace RangeReader

/-! ## The log -/

/-- **An entry of a log**: a request with what came of it, or a move. -/
inductive LogEntry where
  /-- A request and its result. -/
  | fetch (request : RangeRequest) (result : Except Fault Fetched)
  /-- A move to an offset. -/
  | move (position : Nat)

namespace LogEntry

/-- The number of bytes that came, without those beyond the ones asked for. -/
def count : LogEntry → Nat
  | .fetch request (.ok answer) => (answer.data.take request.length).length
  | _ => 0

/-- Whether an entry is a request. -/
def IsFetch : LogEntry → Prop
  | .fetch .. => True
  | .move _ => False

end LogEntry

/-- The number of bytes that came with the entries of a log. -/
def bytesKept : List LogEntry → Nat
  | [] => 0
  | e :: log => e.count + bytesKept log

/-- **Where the next request is to start**, by a log, last entry first, of a
channel that was at `start`. -/
def frontier (start : Nat) : List LogEntry → Nat
  | [] => start
  | .move position :: _ => position
  | .fetch request result :: earlier =>
    frontier start earlier + (LogEntry.fetch request result).count

/-- **A log without gaps and overlaps**: every request is for at least one
byte, and starts at the frontier of the entries before it. -/
def Contiguous (start : Nat) : List LogEntry → Prop
  | [] => True
  | .move _ :: earlier => Contiguous start earlier
  | .fetch request _ :: earlier =>
    request.offset = frontier start earlier ∧ 0 < request.length ∧ Contiguous start earlier

/-- Requests move the frontier by the bytes that came. -/
theorem frontier_append {start : Nat} {between : List LogEntry} (h : ∀ e ∈ between, e.IsFetch)
    (earlier : List LogEntry) :
    frontier start (between ++ earlier) = frontier start earlier + bytesKept between := by
  induction between with
  | nil => rfl
  | cons e between ih =>
    have hrest := ih fun e he => h e (List.mem_cons_of_mem _ he)
    cases e with
    | move position => exact (h _ List.mem_cons_self).elim
    | fetch request result =>
      rw [List.cons_append, frontier, hrest, bytesKept]
      omega

namespace Contiguous

variable {start : Nat}

theorem of_append {later earlier : List LogEntry} (h : Contiguous start (later ++ earlier)) :
    Contiguous start earlier := by
  induction later with
  | nil => exact h
  | cons e later ih =>
    cases e with
    | move position => exact ih h
    | fetch request result => exact ih h.2.2

/-- **Requests without a move in between are adjacent**: a later one starts
where the bytes end that came from an earlier one on. -/
theorem offset_eq {later between earlier : List LogEntry} {first second : RangeRequest}
    {result result' : Except Fault Fetched}
    (h : Contiguous start
      (later ++ .fetch second result' :: (between ++ .fetch first result :: earlier)))
    (hbetween : ∀ e ∈ between, e.IsFetch) :
    second.offset = first.offset + bytesKept (between ++ [.fetch first result]) := by
  obtain ⟨hsecond, -, hrest⟩ := h.of_append
  obtain ⟨hfirst, -, -⟩ := hrest.of_append
  have hall : ∀ e ∈ between ++ [.fetch first result], e.IsFetch := by
    intro e he
    rcases List.mem_append.mp he with he | he
    · exact hbetween e he
    · rw [List.mem_singleton.mp he]
      trivial
  rw [hsecond, hfirst, List.append_cons, frontier_append hall]

/-- Every request is for at least one byte. -/
theorem length_pos {log : List LogEntry} (h : Contiguous start log) {request : RangeRequest}
    {result : Except Fault Fetched} (hmem : .fetch request result ∈ log) : 0 < request.length := by
  obtain ⟨later, earlier, rfl⟩ := List.append_of_mem hmem
  exact h.of_append.2.1

end Contiguous

/-- **A log with nothing but requests added** to an earlier one. -/
def AsksOnly (earlier log : List LogEntry) : Prop :=
  ∃ added, log = added ++ earlier ∧ ∀ e ∈ added, e.IsFetch

namespace AsksOnly

variable {earlier log later : List LogEntry}

theorem refl (log : List LogEntry) : AsksOnly log log := ⟨[], rfl, fun _ he => nomatch he⟩

theorem cons (h : AsksOnly earlier log) (request : RangeRequest) (result : Except Fault Fetched) :
    AsksOnly earlier (.fetch request result :: log) := by
  obtain ⟨added, rfl, hfetch⟩ := h
  refine ⟨.fetch request result :: added, rfl, fun e he => ?_⟩
  rcases List.mem_cons.mp he with rfl | he
  · trivial
  · exact hfetch e he

theorem trans (h : AsksOnly earlier log) (h' : AsksOnly log later) : AsksOnly earlier later := by
  obtain ⟨first, rfl, hfirst⟩ := h
  obtain ⟨rest, rfl, hrest⟩ := h'
  refine ⟨rest ++ first, by rw [List.append_assoc], fun e he => ?_⟩
  rcases List.mem_append.mp he with he | he
  · exact hrest e he
  · exact hfirst e he

end AsksOnly

/-- **A source that keeps a log**, the last entry first. -/
def Source.logged {σ : Type} (source : Source σ) : Source (σ × List LogEntry) where
  fetch request t :=
    let (result, s) := source.fetch request t.1
    (result, s, .fetch request result :: t.2)
  note event t :=
    (source.note event t.1, match event with
      | .seeking _ position => .move position :: t.2
      | _ => t.2)

/-- Keeping a log changes nothing. -/
theorem Source.sees_logged {σ : Type} (source : Source σ) :
    source.Sees source.logged Prod.fst where
  fetch _ _ := rfl
  note _ _ := rfl

/-- A range of at least one byte is never refused for its numbers. -/
theorem Http.checkRange_natCast (offset : Nat) {length : Nat} (h : 0 < length) :
    Http.checkRange offset length = .ok (offset, length) := by
  unfold Http.checkRange
  rw [if_neg (by omega), if_neg (by omega)]
  rfl

namespace Channel

variable {σ : Type} {source : Source σ} {capacity start : Nat} {c after : Channel}
variable {t t' : σ × List LogEntry}

/-! ## One read -/

/-- **What a read asks for**, and when: the channel has nothing to serve and
may go on, and the request is for the bytes at the pointer, at least one, and
none at the limit or beyond. -/
structure Asks (c : Channel) (capacity : Nat) (request : RangeRequest) : Prop where
  fetches : c.Fetches capacity
  target_eq : request.target = c.descriptor
  options_eq : request.options = c.options
  tell_eq : c.tell = .ok request.offset
  length_eq : request.length = min (c.limit - request.offset) (max capacity c.chunkSize)
  length_pos : 1 ≤ request.length
  end_le : request.offset + request.length ≤ c.limit
  inRange : Http.checkRange request.offset request.length = .ok (request.offset, request.length)

theorem Fetches.asks (h : c.Fetches capacity) :
    c.Asks capacity (c.request (c.wanted capacity)) where
  fetches := h
  target_eq := rfl
  options_eq := rfl
  tell_eq := tell_open h.isOpen
  length_eq := rfl
  length_pos := h.wanted_pos
  end_le := by
    have := h.pointer_lt
    show c.pointer + c.wanted capacity ≤ c.limit
    unfold wanted
    omega
  inRange := Http.checkRange_natCast _ h.wanted_pos

/-- A fetch is in the log. -/
theorem log_of_answered {result : Except Fault Fetched}
    (ha : c.answered source.logged capacity t = (result, t')) :
    t'.2 = .fetch (c.request (c.wanted capacity)) result :: t.2 := by
  unfold answered Source.logged at ha
  cases ha
  rfl

/-- **A read asks once or not at all**, and it asks exactly where it has to
fetch. -/
theorem log_readStep {d : Delivery} (step : ReadStep source.logged capacity c t d after t') :
    (∃ request result, c.Asks capacity request ∧ t'.2 = .fetch request result :: t.2)
      ∨ (¬ c.Fetches capacity ∧ t'.2 = t.2) := by
  cases step with
  | closed ho => exact .inr ⟨fun h => absurd (h.isOpen.symm.trans ho) (by decide), rfl⟩
  | cutOff _ hu _ => exact .inr ⟨fun h => hu h.unread_eq, rfl⟩
  | served _ hu _ => exact .inr ⟨fun h => hu h.unread_eq, rfl⟩
  | atEnd _ _ he => exact .inr ⟨fun h => absurd (h.not_ended.symm.trans he) (by decide), rfl⟩
  | changed m _ _ _ hm => exact .inr ⟨fun h => absurd (h.unmodified.symm.trans hm) nofun, rfl⟩
  | bounded _ _ _ _ hl => exact .inr ⟨fun h => absurd h.pointer_lt (by omega), rfl⟩
  | noRoom _ _ _ _ _ hc => exact .inr ⟨fun h => absurd h.capacity_pos (by omega), rfl⟩
  | unanswered fault _ hf ha => exact .inl ⟨_, _, hf.asks, log_of_answered ha⟩
  | refused answer s' hf ha =>
    exact .inl ⟨_, _, hf.asks, (show s'.2 = _ from log_of_answered ha)⟩
  | nothing answer _ hf ha => exact .inl ⟨_, _, hf.asks, log_of_answered ha⟩
  | fetched answer _ _ hf ha => exact .inl ⟨_, _, hf.asks, log_of_answered ha⟩

/-! ## All reads of a run -/

/-- **A channel at the frontier of its log.** The next byte that is not in it
is the one the log ends before, as long as the channel can still ask. -/
structure Tracks (start : Nat) (c : Channel) (t : σ × List LogEntry) : Prop where
  contiguous : Contiguous start t.2
  frontier_eq : c.isOpen = true → c.ended = false → c.modification = none →
    frontier start t.2 = c.pointer + c.unread.length

namespace Tracks

/-- Serving bytes of a chunk leaves its end where it is. -/
theorem end_passed (c : Channel) (n : Nat) :
    (c.passed n).pointer + (c.passed n).unread.length = c.pointer + c.unread.length := by
  rw [pointer_passed, unread_passed, List.length_take, List.length_drop]
  omega

/-- A request of a channel that asks is at the frontier. -/
theorem ask (h : Tracks start c t) (hf : c.Fetches capacity) {result : Except Fault Fetched}
    (ha : c.answered source.logged capacity t = (result, t')) :
    Contiguous start t'.2
      ∧ frontier start t'.2
        = c.pointer + (LogEntry.fetch (c.request (c.wanted capacity)) result).count := by
  have hfrontier := h.frontier_eq hf.isOpen hf.not_ended hf.unmodified
  rw [hf.unread_eq, List.length_nil, Nat.add_zero] at hfrontier
  rw [log_of_answered ha]
  refine ⟨⟨hfrontier.symm, hf.wanted_pos, h.contiguous⟩, ?_⟩
  rw [frontier, hfrontier]

theorem readStep {d : Delivery} (h : Tracks start c t)
    (step : ReadStep source.logged capacity c t d after t') : Tracks start after t' := by
  cases step with
  | cutOff _ _ _ => exact ⟨h.contiguous, fun _ he => Bool.noConfusion he⟩
  | served =>
    refine ⟨h.contiguous, fun ho he hm => ?_⟩
    rw [isOpen_passed] at ho
    rw [ended_passed] at he
    rw [modification_passed] at hm
    rw [end_passed]
    exact h.frontier_eq ho he hm
  | bounded _ _ _ _ _ => exact ⟨h.contiguous, fun _ he => Bool.noConfusion he⟩
  | unanswered fault _ hf ha =>
    obtain ⟨hcontiguous, hfrontier⟩ := h.ask hf ha
    refine ⟨hcontiguous, fun _ _ _ => ?_⟩
    rw [hfrontier, hf.unread_eq]
    rfl
  | refused answer _ hf ha => exact ⟨(h.ask hf ha).1, fun _ _ hm => absurd hm nofun⟩
  | nothing answer _ hf ha =>
    refine ⟨(h.ask hf ha).1, fun _ he _ => ?_⟩
    have hended : decide (0 < c.wanted capacity) = false := he
    exact absurd hf.wanted_pos (of_decide_eq_false hended)
  | fetched answer _ filled hf ha _ _ hfilled =>
    obtain ⟨hcontiguous, hfrontier⟩ := h.ask hf ha
    refine ⟨hcontiguous, fun _ _ _ => ?_⟩
    rw [end_passed, hfrontier, hfilled]
    rfl
  | _ => exact h

/-- **Every operation keeps the channel at the frontier.** -/
theorem perform (h : Tracks start c t) (op : Operation) :
    Tracks start (c.perform source.logged op t).2.1 (c.perform source.logged op t).2.2 :=
  perform_preserves (P := Tracks start) (fun _ _ _ _ _ _ h step => h.readStep step)
    (fun _ _ h => ⟨h.contiguous, fun ho => Bool.noConfusion ho⟩)
    (fun _ _ _ _ => ⟨h.contiguous, fun _ _ _ => rfl⟩)
    (fun _ _ _ _ => ⟨h.contiguous, h.frontier_eq⟩) (fun _ _ => ⟨h.contiguous, h.frontier_eq⟩) h

theorem performAll (h : Tracks start c t) (ops : List Operation) :
    Tracks start (performAll source.logged ops c t).2.1 (performAll source.logged ops c t).2.2 :=
  performAll_preserves (P := Tracks start) (fun op _ _ h => h.perform op) ops h

end Tracks

/-! ## Between two moves -/

/-- **Only moves are logged as moves**: an operation that is not one asks only. -/
theorem asksOnly_perform {op : Operation} (hop : ∀ target, op ≠ .seek target)
    (t : σ × List LogEntry) : AsksOnly t.2 (c.perform source.logged op t).2.2.2 := by
  have hreads : KeptByReads source.logged fun _ (u : σ × List LogEntry) => AsksOnly t.2 u.2 := by
    intro capacity c u d after u' h step
    rcases log_readStep step with ⟨request, result, -, hu⟩ | ⟨-, hu⟩
    · rw [hu]
      exact h.cons request result
    · rw [hu]
      exact h
  exact perform_preserves hreads (fun _ _ h => h) (fun target _ he => absurd he (hop target))
    (fun _ _ _ _ => .refl _) (fun _ _ => .refl _) (.refl _)

theorem asksOnly_performAll {ops : List Operation} (hops : ∀ target, .seek target ∉ ops)
    (c : Channel) (t : σ × List LogEntry) :
    AsksOnly t.2 (Channel.performAll source.logged ops c t).2.2.2 := by
  induction ops generalizing c t with
  | nil => exact .refl _
  | cons op ops ih =>
    have hop : AsksOnly t.2 (c.perform source.logged op t).2.2.2 :=
      asksOnly_perform (fun target he => hops target (he ▸ List.mem_cons_self)) t
    rw [performAll_cons]
    exact hop.trans (ih (fun target he => hops target (List.mem_cons_of_mem _ he)) _ _)

end Channel

/-! ## The theorem -/

/-- **What a channel asks for**, opened or restored, whatever was done to it
and whatever its source answered.

* Keeping the log changes nothing.
* Any read asks once where it has nothing to serve and may go on, for what
  `Asks` says, and else not at all.
* No request is refused for its numbers.
* Of two requests without a move in between, the later one starts where the
  bytes end that came from the earlier one on.
* As long as the channel can ask again, the bytes of the log end where the
  bytes of its chunk do.
* Operations that are not moves add nothing but requests. -/
theorem fetches_adjacent {σ : Type} (source : Source σ) {c : Channel} (hc : c.Made)
    (ops : List Operation) (s : σ) {outcomes : List Outcome} {after : Channel} {t : σ}
    {log : List LogEntry}
    (hrun : Channel.performAll source.logged ops c (s, []) = (outcomes, after, t, log)) :
    Channel.performAll source ops c s = (outcomes, after, t)
      ∧ (∀ (reader : Channel) (u : σ × List LogEntry) (capacity : Nat),
        (∃ request result, reader.Asks capacity request
            ∧ (reader.readInto source.logged capacity u).2.2.2 = .fetch request result :: u.2)
          ∨ (¬ reader.Fetches capacity
            ∧ (reader.readInto source.logged capacity u).2.2.2 = u.2))
      ∧ (∀ request result, .fetch request result ∈ log →
        Http.checkRange request.offset request.length = .ok (request.offset, request.length))
      ∧ (∀ later between earlier first result second result',
        log = later ++ .fetch second result' :: (between ++ .fetch first result :: earlier) →
        (∀ e ∈ between, e.IsFetch) →
        second.offset = first.offset + bytesKept (between ++ [.fetch first result]))
      ∧ (after.isOpen = true → after.ended = false → after.modification = none →
        frontier c.pointer log = after.pointer + after.unread.length)
      ∧ ∀ more, (∀ target, .seek target ∉ more) →
        AsksOnly log (Channel.performAll source.logged more after (t, log)).2.2.2 := by
  have hstart : Channel.Tracks c.pointer c (s, ([] : List LogEntry)) :=
    ⟨trivial, fun _ _ _ => by rw [hc.unread_eq.1]; rfl⟩
  have htracks : Channel.Tracks c.pointer
      (Channel.performAll source.logged ops c (s, [])).2.1
      (Channel.performAll source.logged ops c (s, [])).2.2 := hstart.performAll ops
  rw [hrun] at htracks
  refine ⟨?_, fun reader u capacity => ?_, fun request result hmem => ?_, ?_, htracks.frontier_eq,
    fun more hmore => Channel.asksOnly_performAll hmore after (t, log)⟩
  · have hplain := Channel.performAll_seen source.sees_logged ops c (s, [])
    rw [hrun] at hplain
    exact hplain
  · exact Channel.log_readStep (Channel.readInto_step source.logged capacity reader u)
  · exact Http.checkRange_natCast _ (htracks.contiguous.length_pos hmem)
  · intro later between earlier first result second result' hlog hbetween
    exact (hlog ▸ htracks.contiguous).offset_eq hbetween

theorem fetches_adjacent_sample :
    ∃ c record outcomes after, c.Made
      ∧ Channel.performAll Source.overfull.logged
          [.setChunkSize 4, .readInto 1, .readInto 9, .setChunkSize 2, .readInto 1] c ((), [])
        = (outcomes, after, (),
          [.fetch ⟨record, [], 4, 2⟩ (.ok Source.sixBytes),
            .fetch ⟨record, [], 0, 4⟩ (.ok Source.sixBytes)])
      ∧ 4 = 0 + bytesKept [.fetch ⟨record, [], 0, 4⟩ (.ok Source.sixBytes)] := by
  have hc : Channel.opened sampleId [] = .ok _ := rfl
  obtain ⟨-, -, -, hadjacent, -, -⟩ := fetches_adjacent Source.overfull (.opened hc)
    [.setChunkSize 4, .readInto 1, .readInto 9, .setChunkSize 2, .readInto 1] () rfl
  exact ⟨_, ⟨"bucket", "name", none, none, none, none, none⟩, _, _, .opened hc, rfl,
    hadjacent [] [] [] ⟨_, [], 0, 4⟩ (.ok Source.sixBytes) ⟨_, [], 4, 2⟩ (.ok Source.sixBytes) rfl
      fun _ he => nomatch he⟩

end RangeReader

import RangeReader.Proofs.Chunking
import RangeReader.Proofs.Echo
import RangeReader.Proofs.FailedReads
import RangeReader.Proofs.SingleReads

/-!
# Reads are exact

A single read may give fewer bytes than there is room for, and where it stops
depends on the chunks. `read` goes on, and what it gives is decided by the
content alone: the bytes from the pointer up to the first of three places, the
one asked for, the limit, and the end of the content (`PlainReader.stopAfter`).

The one thing that stands in the way is an end that was said before. It was
true when it was said, but the limit may have been raised since, and the
channel keeps to it. So it must be known whether one of the single reads since
the last move has said so, those inside of a `read` among them (`endSaid`). This
is just what a plain reader remembers. What a channel remembers is another
thing: it may know of the end of the content without having said so, and then
it still gives all the bytes up to there.

A channel may have been handed over in between. One that takes up a read is in
the place of the one before it, and what that one said counts.
-/

namespace RangeReader

namespace Held

/-- **The bytes from `start` up to `stop`**, as far as there are any. -/
def between (h : Held) (start stop : Nat) : List UInt8 := (h.data.take stop).drop start

@[simp] theorem length_between (h : Held) (start stop : Nat) :
    (h.between start stop).length = min stop h.data.length - start := by
  simp [between]

theorem between_eq_nil {h : Held} {start stop : Nat} (hle : min stop h.data.length ≤ start) :
    h.between start stop = [] :=
  List.drop_eq_nil_of_le (by simpa using hle)

theorem tail_between (h : Held) (start stop : Nat) :
    (h.between start stop).tail = h.between (start + 1) stop := List.tail_drop

end Held

/-! ## What a plain reader reads -/

namespace PlainReader

variable {h : Held} {r : PlainReader}

/-- **Bytes up to a place**, and the reader there, if that is not beyond the end. -/
theorem next_eq_between {count stop : Nat} (hcount : count = stop - r.position)
    (hle : count ≤ r.left h.data) :
    r.next h.data count = h.between r.position stop
      ∧ (r.advance count).position = r.position + (h.between r.position stop).length := by
  have hnext : r.next h.data count = h.between r.position stop := by
    rw [next, Held.between, List.drop_take, hcount]
  rw [← hnext, length_next hle]
  exact ⟨rfl, rfl⟩

/-- **The place where a read of `size` bytes stops**, or of all there are where
that is negative. -/
def stopAfter (data : List UInt8) (r : PlainReader) (size : Int) : Nat :=
  if size < 0 then min r.limit data.length
  else min (r.position + size.toNat) (min r.limit data.length)

/-- **A read gives the bytes up to there**, if the end was not said. -/
theorem read_eq_between (hr : r.ended = false) (size : Int) :
    (r.read h.data size).1 = h.between r.position (r.stopAfter h.data size)
      ∧ (r.read h.data size).2.position
        = r.position + (h.between r.position (r.stopAfter h.data size)).length := by
  have hleft : r.left h.data = min r.limit h.data.length - r.position := rfl
  unfold read stopAfter
  simp only [hr, Bool.false_eq_true, or_false]
  by_cases hneg : size < 0
  · rw [if_neg (by omega), if_neg (by omega), if_pos hneg]
    exact next_eq_between hleft (Nat.le_refl _)
  · rw [if_neg hneg]
    by_cases hzero : size = 0
    · rw [if_pos hzero]
      show r.next h.data 0 = _ ∧ (r.advance 0).position = _
      exact next_eq_between (by omega) (Nat.zero_le _)
    · rw [if_neg hzero]
      split
      · exact next_eq_between (by omega) (by omega)
      · exact next_eq_between (by omega) (Nat.le_refl _)

/-- A read of more bytes than there are takes all of them, and says so. -/
theorem read_of_left_lt {size : Nat} (hr : r.ended = false) (hlt : r.left h.data < size) :
    r.read h.data size
      = (r.next h.data (r.left h.data), (r.advance (r.left h.data)).finished) := by
  unfold read
  rw [if_neg (by simp [hr]; omega), if_neg (by omega)]

/-- **Two reads give what one gives** that is for as many bytes as both. -/
theorem read_add (hr : r.ended = false) (a b : Nat) :
    (r.read h.data a).1 ++ ((r.read h.data a).2.read h.data b).1
      = (r.read h.data (a + b : Nat)).1 := by
  by_cases hle : a ≤ r.left h.data
  -- the first gives what it was asked for, and the second goes on from there
  · have hfirst : r.read h.data a = (r.next h.data a, r.advance a) := by
      rw [read_of_bytes hr (Nat.le_min.mpr ⟨Nat.le_refl a, hle⟩), Nat.sub_self]
      simp [read]
    rw [hfirst, read_of_bytes hr (Nat.le_min.mpr ⟨Nat.le_add_right a b, hle⟩),
      Nat.add_sub_cancel_left]
  -- the first gives all there is and says so, and there is no more
  · rw [read_of_left_lt hr (by omega), read_of_left_lt hr (by omega)]
    simp [read, finished]

/-- One read more says that it is at the end, or does not. -/
theorem Step.ended_eq {data : List UInt8} {capacity : Nat} {d : Delivery} {r' : PlainReader}
    (step : Step data (.readInto capacity) r (.ofDelivery d) r') :
    r'.ended = (r.ended || d.isEnd) := by
  cases d with
  | bytes bytes => cases step <;> simp [advance, Delivery.isEnd]
  | ended => cases step <;> simp [finished, Delivery.isEnd]
  | failed fault => cases step

end PlainReader

/-! ## Whether the end was said -/

namespace Channel

variable {σ : Type} {source : Source σ} {c c' : Channel} {s s' : σ} {h : Held} {said : Bool}

/-- Whether the end was said since the last move, with one operation more. -/
def saidAfter (source : Source σ) (said : Bool) (op : Operation) (c : Channel) (s : σ) : Bool :=
  match op, (c.perform source op s).1 with
  | .seek _, .done => false
  | _, _ => said || (c.gives source op s).any Delivery.isEnd

/-- **Whether the end was said** by a single read since the last move, along a
chain. -/
def endSaid [Nesting] (source : Source σ) : List (Move σ) → Bool → Channel → σ → Bool
  | [], said, _, _ => said
  | .operate op :: moves, said, c, s =>
    endSaid source moves (saidAfter source said op c s) (c.perform source op s).2.1
      (c.perform source op s).2.2
  | .handOver next :: moves, said, c, s =>
    match c.handedOver with
    | .ok c => endSaid next moves said c s
    | .error _ => said

/-- **A channel that follows a plain reader as long as it is open**, one that
has said the end or one that has not. -/
def FollowsSaying (h : Held) (said : Bool) (c : Channel) : Prop :=
  c.isOpen = true → ∃ r, Follows h r c ∧ r.ended = said

theorem isOpen_close (c : Channel) : c.close.isOpen = false := by
  unfold close
  split
  · rfl
  · simpa using ‹¬ c.isOpen = true›

/-- **No operation opens a channel.** -/
theorem isOpen_of_perform {op : Operation} (ho : (c.perform source op s).2.1.isOpen = true) :
    c.isOpen = true := by
  by_contra hclosed
  rw [Bool.not_eq_true] at hclosed
  have hstays : (c.perform source op s).2.1.isOpen = false :=
    perform_preserves (P := fun c _ => c.isOpen = false)
      (fun _ _ _ _ _ _ h step => (congrArg Prod.fst (settings_readStep step)).trans h)
      (fun _ _ _ => rfl) (fun _ _ _ _ => hclosed) (fun _ _ _ _ => hclosed) (fun _ _ => hclosed)
      hclosed
  simp [hstays] at ho

namespace FollowsSaying

/-- **The single reads of a following channel** say the end if and only if its plain
reader does. -/
theorem keptWithGiven (hs : source.Serves h) (said : Bool) :
    KeptWithGiven source fun given c _ =>
      ∃ r, Follows h r c ∧ r.ended = (said || given.any Delivery.isEnd) := by
  rintro given capacity c s d after s' ⟨r, hf, hr⟩ step
  obtain ⟨r', hstep, hf'⟩ := hf.readInto hs step
  refine ⟨r', hf', ?_⟩
  rw [hstep.ended_eq, hr]
  simp [Bool.or_assoc]

/-- **Every operation keeps to it**, also one that fails. -/
theorem perform (hs : source.Serves h) (hf : FollowsSaying h said c) (op : Operation) (s : σ) :
    FollowsSaying h (saidAfter source said op c s) (c.perform source op s).2.1 := by
  intro ho'
  obtain ⟨r, hf, hr⟩ := hf (isOpen_of_perform ho')
  have hstart : ∃ r, Follows h r c ∧ r.ended = (said || ([] : List Delivery).any Delivery.isEnd) :=
    ⟨r, hf, by simp [hr]⟩
  cases op with
  | readInto capacity =>
    rw [perform_readInto]
    exact keptWithGiven hs said _ _ _ _ _ _ _ hstart (readInto_step source capacity c s)
  | read size => exact read_given (keptWithGiven hs said) size c s hstart
  | seek target =>
    unfold saidAfter
    rw [perform_seek, seek_open source hf.isOpen]
    cases bound .position target with
    | error fault => exact hstart
    | ok position => exact ⟨_, hf.movedTo position, rfl⟩
  | setLimit target =>
    rw [perform_setLimit]
    unfold Channel.setLimit
    cases bound .limit target with
    | error fault => exact hstart
    | ok limit => exact ⟨_, hf.setLimit limit, by simp [saidAfter, gives, hr]⟩
  | setChunkSize n => exact ⟨r, hf.setChunkSize n, by simp [saidAfter, gives, hr]⟩
  | tell => exact hstart
  | readAndClose size => exact absurd (ho'.symm.trans (isOpen_close _)) (by decide)
  | close => exact absurd (ho'.symm.trans (isOpen_close _)) (by decide)

/-- **What takes up a read** follows the same reader. -/
theorem takesUp (hf : FollowsSaying h said c) (hover : c.TakesUp c') : FollowsSaying h said c' := by
  intro ho'
  obtain ⟨r, hf, hr⟩ := hf (hover.isOpen_eq.symm.trans ho')
  have hresumed := hf.resumed
  refine ⟨r, ⟨ho', hover.pointer_eq.trans hf.pointer_eq, hover.limit_eq.trans hf.limit_eq,
    hover.unmodified, ?_, ?_, fun hs => ?_, ?_⟩, hr⟩
  · rw [hover.lastEtag_eq]
    exact hf.etag
  · rw [hover.unread_eq]
    exact List.nil_prefix
  · exact ⟨hover.ended_eq.trans (hresumed.ended_of_said hs).1, hover.unread_eq⟩
  · rw [hover.ended_eq, hover.unread_eq]
    exact hresumed.said_of_ended

/-- **A chain keeps to it**, over sources that serve the object. -/
theorem performMoves [Nesting] (hs : source.Serves h) (hf : FollowsSaying h said c)
    {moves : List (Move σ)}
    (hmoves : ∀ next, .handOver next ∈ moves → next.Serves h) {outcomes : List Outcome}
    (hrun : Channel.performMoves source moves c s = .ok (outcomes, c', s')) :
    FollowsSaying h (endSaid source moves said c s) c' := by
  induction moves generalizing source said c s outcomes with
  | nil =>
    cases hrun
    exact hf
  | cons move moves ih =>
    have hrest := fun next hm => hmoves next (List.mem_cons_of_mem move hm)
    cases move with
    | operate op =>
      rw [performMoves_operate] at hrun
      obtain ⟨⟨later, last, t⟩, hlater, hrun⟩ := eq_ok_of_bind hrun
      cases hrun
      exact ih hs (hf.perform hs op s) hrest hlater
    | handOver next =>
      rw [performMoves_handOver] at hrun
      obtain ⟨taken, hover, hrun⟩ := eq_ok_of_bind hrun
      have htaken : FollowsSaying h said taken := hf.takesUp (takesUp_of_handedOver hover)
      rw [endSaid, hover]
      exact ih (hmoves next List.mem_cons_self) htaken hrest hrun

end FollowsSaying

/-- **A read of a channel that has not said the end**, by places: it gives the bytes
up to where it stops, and the pointer is after them. -/
theorem Follows.read_eq_between {r : PlainReader} (hs : source.Serves h) (hf : Follows h r c)
    (hr : r.ended = false) (size : Int) (s : σ) :
    (c.read source size s).1 = .ok (h.between c.pointer (r.stopAfter h.data size))
      ∧ (c.read source size s).2.1.tell
        = .ok (c.pointer + (h.between c.pointer (r.stopAfter h.data size)).length) := by
  obtain ⟨hresult, hf'⟩ := hf.read hs size s
  obtain ⟨hbytes, hplace⟩ := PlainReader.read_eq_between hr size
  rw [hresult, hf'.tell_eq, hbytes, hplace, hf.pointer_eq]
  exact ⟨rfl, rfl⟩

end Channel

/-! ## The theorem -/

/-- **Reads are exact.** Take a channel just opened over a source that serves an
object, after any operations, failing ones among them, with any sizes of chunks, and
handed over any number of times to sources that serve the object too. If it is open
and none of its single reads since the last move has said that the end is reached,
then over any such source

* `read` of `n` bytes gives the bytes from the pointer on up to the `n`-th, the limit or
  the end, whichever comes first, and the pointer advances by their number;
* so does `read` of all bytes, up to the limit or the end;
* what is read in two reads is what is read in one. -/
theorem reads_exact [Nesting] {σ : Type} {source : Source σ} {h : Held} (hs : source.Serves h)
    {object : ObjectId} {options : List ReadOption} {fresh : Channel}
    (hc : Channel.opened object options = .ok fresh) (moves : List (Move σ))
    (hmoves : ∀ next, .handOver next ∈ moves → next.Serves h) (start : σ)
    {outcomes : List Outcome} {c : Channel} {s : σ}
    (hrun : Channel.performMoves source moves fresh start = .ok (outcomes, c, s))
    (ho : c.isOpen = true) (hunsaid : Channel.endSaid source moves false fresh start = false)
    {reader : Source σ} (hreader : reader.Serves h) :
    c.tell = .ok c.pointer
      ∧ (∀ n : Nat, ∃ bytes,
        bytes = h.between c.pointer (min (c.pointer + n) (min c.limit h.data.length))
          ∧ (c.read reader n s).1 = .ok bytes
          ∧ (c.read reader n s).2.1.tell = .ok (c.pointer + bytes.length))
      ∧ (∀ n : Int, n < 0 → ∃ bytes,
        bytes = h.between c.pointer (min c.limit h.data.length)
          ∧ (c.read reader n s).1 = .ok bytes
          ∧ (c.read reader n s).2.1.tell = .ok (c.pointer + bytes.length))
      ∧ ∀ a b : Nat, ∃ first second,
        (c.read reader a s).1 = .ok first
          ∧ ((c.read reader a s).2.1.read reader b (c.read reader a s).2.2).1 = .ok second
          ∧ (c.read reader (a + b : Nat) s).1 = .ok (first ++ second) := by
  have hsaying : Channel.FollowsSaying h false fresh := fun _ =>
    ⟨.start, Channel.follows_opened hc, rfl⟩
  obtain ⟨r, hf, hr⟩ := hsaying.performMoves hs hmoves hrun ho
  rw [hunsaid] at hr
  refine ⟨Channel.tell_open ho, fun n => ?_, fun n hneg => ?_, fun a b => ?_⟩
  · have hread := hf.read_eq_between hreader hr n s
    rw [show r.stopAfter h.data n = min (c.pointer + n) (min c.limit h.data.length) by
      rw [hf.pointer_eq, hf.limit_eq]; exact if_neg (by omega)] at hread
    exact ⟨_, rfl, hread⟩
  · have hread := hf.read_eq_between hreader hr n s
    rw [show r.stopAfter h.data n = min c.limit h.data.length by
      rw [hf.limit_eq]; exact if_pos hneg] at hread
    exact ⟨_, rfl, hread⟩
  · obtain ⟨hfirst, hf'⟩ := hf.read hreader a s
    obtain ⟨hsecond, -⟩ := hf'.read hreader b (c.read reader a s).2.2
    refine ⟨_, _, hfirst, hsecond, ?_⟩
    rw [(hf.read hreader (a + b : Nat) s).1, PlainReader.read_add hr]

/-- A use that says the end and moves away from it, with a chunk half served and a limit
within the content. -/
def sampleReturn : List (Move Unit) :=
  [.operate (.setChunkSize 4), .operate (.readInto 3), .operate (.setLimit (.int 9)),
    .operate (.seek (.int 20)), .operate (.readInto 1), .operate (.seek (.int (-1))),
    .operate (.seek (.int 2)), .operate (.readInto 1)]

theorem reads_exact_sample :
    ∃ fresh c outcomes, Channel.opened sampleId [] = .ok fresh
      ∧ Channel.performMoves (sampleHeld.source : Source Unit) sampleReturn fresh ()
        = .ok (outcomes, c, ())
      ∧ c.isOpen = true
      ∧ Channel.endSaid (sampleHeld.source : Source Unit) sampleReturn false fresh () = false
      ∧ c.tell = .ok 3
      ∧ (c.read (sampleHeld.source : Source Unit) 5 ()).1 = .ok [68, 69, 70, 71, 72]
      ∧ (c.read (sampleHeld.source : Source Unit) (-1) ()).1 = .ok [68, 69, 70, 71, 72, 73] := by
  obtain ⟨fresh, c, outcomes, hopened, hrun, hopen, hunsaid, hplace, hlimit⟩ :
      ∃ fresh c outcomes, Channel.opened sampleId [] = .ok fresh
        ∧ Channel.performMoves (sampleHeld.source : Source Unit) sampleReturn fresh ()
          = .ok (outcomes, c, ())
        ∧ c.isOpen = true
        ∧ Channel.endSaid (sampleHeld.source : Source Unit) sampleReturn false fresh () = false
        ∧ c.pointer = 3 ∧ c.limit = 9 :=
    ⟨_, _, _, rfl, rfl, rfl, rfl, rfl, rfl⟩
  obtain ⟨htell, hcount, hall, -⟩ := reads_exact sampleHeld.serves hopened sampleReturn
    (by simp [sampleReturn]) () hrun hopen hunsaid sampleHeld.serves
  obtain ⟨_, rfl, hfive, -⟩ := hcount 5
  obtain ⟨_, rfl, hrest, -⟩ := hall (-1) (by decide)
  rw [hplace, hlimit] at hfive hrest
  rw [hplace] at htell
  exact ⟨fresh, c, outcomes, hopened, hrun, hopen, hunsaid, htell, hfive, hrest⟩

end RangeReader

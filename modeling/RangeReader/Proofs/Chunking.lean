import RangeReader.Held
import RangeReader.Proofs.PlainReader
import RangeReader.Proofs.ReadStep

/-!
# Chunks are invisible

A channel over content that does not change is a plain reader of that
content. It remembers much more – a chunk and how far it is served, an end
that it may know of before it has said so, a tag – and what it remembers
depends on how the chunks fell. None of it shows.

`Follows` is the relation between the two. Its last two fields are the
delicate ones. A plain reader that has said it is at the end is followed by
a channel that is there with nothing left to serve. The converse fails: a
channel knows that it is at the end as soon as a fetch comes short, while
bytes of the chunk are still unread, and it knows it for good. So a channel
that knows has either said so, or its chunk goes to the very end of the
content.
-/

namespace RangeReader

/-- **A source serves an object** when it answers every request for at least
one byte as the object does, whatever its own state. -/
def Source.Serves {σ : Type} (source : Source σ) (h : Held) : Prop :=
  ∀ (request : RangeRequest) (s : σ), 0 < request.length →
    (source.fetch request s).1 = .ok (h.answer request)

theorem Held.serves {σ : Type} (h : Held) : (h.source : Source σ).Serves h := fun _ _ _ => rfl

namespace Operation

/-- **The operations of a reader**, with arguments that a channel takes. -/
def IsPlain : Operation → Prop
  | .readInto _ => True
  | .read _ => True
  | .seek (.int position) => 0 ≤ position
  | .setLimit (.int limit) => 0 ≤ limit
  | .setChunkSize _ => True
  | .tell => True
  | _ => False

theorem IsPlain.seek_eq {target : Value} (h : (Operation.seek target).IsPlain) :
    ∃ position : Nat, target = .int position := by
  cases target with
  | int n => exact ⟨n.toNat, congrArg Value.int (Int.toNat_of_nonneg h).symm⟩
  | _ => exact h.elim

theorem IsPlain.setLimit_eq {target : Value} (h : (Operation.setLimit target).IsPlain) :
    ∃ limit : Nat, target = .int limit := by
  cases target with
  | int n => exact ⟨n.toNat, congrArg Value.int (Int.toNat_of_nonneg h).symm⟩
  | _ => exact h.elim

end Operation

namespace Channel

/-! ## The relation -/

/-- **A channel that follows a plain reader** of the content of an object. -/
structure Follows (h : Held) (r : PlainReader) (c : Channel) : Prop where
  isOpen : c.isOpen = true
  pointer_eq : c.pointer = r.position
  limit_eq : c.limit = r.limit
  unmodified : c.modification = none
  etag : c.lastEtag = none ∨ c.lastEtag = h.etag
  unread : c.unread <+: h.data.drop r.position
  ended_of_said : r.ended = true → c.ended = true ∧ c.unread = []
  said_of_ended : c.ended = true → r.ended = true ∨ h.data.length ≤ r.position + c.unread.length

variable {σ : Type} {source : Source σ} {capacity : Nat} {c after : Channel} {s s' : σ}
variable {h : Held} {r : PlainReader}

/-- A channel just opened follows a plain reader at the start. -/
theorem follows_opened {object : ObjectId} {options : List ReadOption}
    (hc : Channel.opened object options = .ok c) : Follows h .start c := by
  have hfresh := isFresh_of_opened hc
  refine ⟨hfresh.isOpen, hfresh.pointer_eq, hfresh.limit_eq, hfresh.unmodified,
    Or.inl hfresh.lastEtag_eq, ?_, nofun, ?_⟩
  · rw [hfresh.unread_eq]
    exact List.nil_prefix
  · rw [hfresh.not_ended]
    exact nofun

namespace Follows

theorem tell_eq (hf : Follows h r c) : c.tell = .ok r.position := by
  rw [tell_open hf.isOpen, hf.pointer_eq]

/-- With a chunk there, the end was not said, and there are bytes before the
end of the content. -/
theorem not_said (hf : Follows h r c) (hu : c.unread ≠ []) :
    r.ended = false ∧ r.position + c.unread.length ≤ h.data.length := by
  constructor
  · cases he : r.ended with
    | false => rfl
    | true => exact absurd (hf.ended_of_said he).2 hu
  · have hlen := hf.unread.length_le
    have := List.length_pos_iff.mpr hu
    rw [List.length_drop] at hlen
    omega

/-- Bytes of the chunk are the next bytes of the content. -/
theorem take_unread (hf : Follows h r c) (n : Nat) :
    c.unread.take n = r.next h.data (min n c.unread.length) :=
  Channel.take_unread hf.unread n

/-- Serving bytes of a chunk is a plain read of as many. -/
theorem passed (hf : Follows h r c) (n : Nat) :
    Follows h (r.advance (min n c.unread.length)) (c.passed n) where
  isOpen := (isOpen_passed c n).trans hf.isOpen
  pointer_eq := by
    rw [pointer_passed, hf.pointer_eq, List.length_take]
    rfl
  limit_eq := (limit_passed c n).trans hf.limit_eq
  unmodified := (modification_passed c n).trans hf.unmodified
  etag := by
    rw [lastEtag_passed]
    exact hf.etag
  unread := by
    have hrest := unread_passed_prefix hf.unread n
    rw [List.drop_drop] at hrest
    exact hrest
  ended_of_said := by
    intro hs
    obtain ⟨he, hu⟩ := hf.ended_of_said hs
    rw [ended_passed, unread_passed, hu]
    exact ⟨he, List.drop_nil⟩
  said_of_ended := by
    rw [ended_passed, unread_passed, List.length_drop]
    intro he
    refine (hf.said_of_ended he).imp id (fun hl => ?_)
    show h.data.length ≤ r.position + min n c.unread.length + (c.unread.length - n)
    omega

/-- **Serving a chunk is a step of the plain reader**: bytes where there is
room, and nothing without. -/
theorem serve (hf : Follows h r c) (hu : c.unread ≠ []) (hl : c.pointer < c.limit) :
    ∃ r', PlainReader.Step h.data (.readInto capacity) r
        (.delivered (.bytes (c.unread.take (c.allowance capacity)))) r'
      ∧ Follows h r' (c.passed (c.allowance capacity)) := by
  obtain ⟨hsaid, hlen⟩ := hf.not_said hu
  have hpos := List.length_pos_iff.mpr hu
  have hn : c.allowance capacity = min capacity (r.limit - r.position) := by
    rw [allowance, hf.limit_eq, hf.pointer_eq]
  rw [hf.limit_eq, hf.pointer_eq] at hl
  refine ⟨_, ?_, hf.passed _⟩
  rw [hf.take_unread]
  by_cases hc : capacity = 0
  · subst hc
    rw [hn, Nat.zero_min, Nat.zero_min]
    exact .noBytes hsaid hl
  · refine .bytes ?_ (by omega) ?_
    · rw [PlainReader.atEnd_iff_left hsaid, PlainReader.left]
      omega
    · rw [PlainReader.left]
      omega

/-- A channel that has answered that the end is reached. -/
theorem finished (hf : Follows h r c) (position served : Nat)
    (hp : position + served = r.position) :
    Follows h r.finished
      { c with position := position, served := served, unread := [], ended := true } where
  isOpen := hf.isOpen
  pointer_eq := hp
  limit_eq := hf.limit_eq
  unmodified := hf.unmodified
  etag := hf.etag
  unread := List.nil_prefix
  ended_of_said _ := ⟨rfl, rfl⟩
  said_of_ended _ := Or.inl rfl

/-- The end as an answer, whether or not there was room. -/
theorem said (hr : r.AtEnd h.data) :
    PlainReader.Step h.data (.readInto capacity) r (.delivered .ended) r.finished := by
  by_cases hc : capacity = 0
  · subst hc
    exact .noRoomEnded hr
  · exact .ended (Nat.pos_of_ne_zero hc) hr

/-- What a source that serves the object answers to a fetch of the channel. -/
theorem answer_eq (hs : source.Serves h) (hf : Follows h r c) (hw : c.Fetches capacity)
    {result : Except Fault Fetched} (ha : c.answered source capacity s = (result, s')) :
    result = .ok (h.answer (c.request (c.wanted capacity)))
      ∧ (h.answer (c.request (c.wanted capacity))).data
        = (h.data.drop r.position).take (c.wanted capacity)
      ∧ (h.answer (c.request (c.wanted capacity))).etag
        = (if h.data.length ≤ r.position then none else h.etag) := by
  refine ⟨?_, ?_, ?_⟩
  · have := hs (c.request (c.wanted capacity))
      (source.note (.fetching (c.wanted capacity) c.object.text c.pointer) s) hw.wanted_pos
    rw [← this]
    exact (congrArg Prod.fst ha).symm
  · rw [h.data_answer, ← hf.pointer_eq]
    rfl
  · rw [h.etag_answer, ← hf.pointer_eq]
    rfl

/-- A chunk just fetched from the object. -/
theorem withChunk (hf : Follows h r c) (hw : c.Fetches capacity) {etag : Option String}
    (he : etag = none ∨ etag = h.etag) :
    Follows h r (c.withChunk (c.wanted capacity) etag
      ((h.data.drop r.position).take (c.wanted capacity))) where
  isOpen := hf.isOpen
  pointer_eq := hf.pointer_eq
  limit_eq := hf.limit_eq
  unmodified := hf.unmodified
  etag := he
  unread := List.take_prefix _ _
  ended_of_said := by
    intro hs
    have := hf.ended_of_said hs
    rw [hw.not_ended] at this
    exact absurd this.1 Bool.false_ne_true
  said_of_ended := by
    intro hshort
    refine Or.inr ?_
    have hlt : ((h.data.drop r.position).take (c.wanted capacity)).length < c.wanted capacity :=
      of_decide_eq_true hshort
    show h.data.length
      ≤ r.position + ((h.data.drop r.position).take (c.wanted capacity)).length
    rw [List.length_take, List.length_drop] at hlt ⊢
    omega

/-- **Every read of a following channel is a step of its plain reader**, and
it follows again. -/
theorem readInto (hs : source.Serves h) (hf : Follows h r c) {d : Delivery}
    (step : ReadStep source capacity c s d after s') :
    ∃ r', PlainReader.Step h.data (.readInto capacity) r (.ofDelivery d) r'
      ∧ Follows h r' after := by
  cases step with
  | closed hclosed => exact absurd (hf.isOpen.symm.trans hclosed) (by decide)
  | cutOff _ hu hl =>
    rw [hf.limit_eq, hf.pointer_eq] at hl
    exact ⟨_, said (Or.inr (by omega)), hf.finished _ _ hf.pointer_eq⟩
  | served _ hu hl => exact hf.serve hu hl
  | atEnd _ hu he =>
    -- the channel may have known before it said so, but its chunk is used up
    have hend : r.AtEnd h.data := by
      refine (hf.said_of_ended he).imp id (fun hlen => ?_)
      rw [hu, List.length_nil] at hlen
      omega
    refine ⟨_, said hend, ?_⟩
    have hfinished := hf.finished _ _ hf.pointer_eq
    rw [← hu, ← he] at hfinished
    exact hfinished
  | changed m _ _ _ hm => exact absurd (hf.unmodified.symm.trans hm) (by simp)
  | bounded _ hu _ _ hl =>
    rw [hf.limit_eq, hf.pointer_eq] at hl
    refine ⟨_, said (Or.inr (by omega)), ?_⟩
    have hfinished := hf.finished _ _ hf.pointer_eq
    rw [← hu] at hfinished
    exact hfinished
  | noRoom _ hu he _ hl hc =>
    subst hc
    have hsaid : r.ended = false := by
      cases hr : r.ended with
      | false => rfl
      | true => rw [← he, (hf.ended_of_said hr).1]
    rw [hf.limit_eq, hf.pointer_eq] at hl
    exact ⟨r, .noBytes hsaid hl, hf⟩
  | unanswered fault _ hw ha =>
    exact absurd (answer_eq hs hf hw ha).1 (by simp)
  | refused answer _ hw ha hclash =>
    -- past the end there are no bytes to compare, and before it there is one tag
    obtain ⟨hok, hdata, htag⟩ := answer_eq hs hf hw ha
    cases hok
    refine absurd hclash ?_
    unfold clashes
    rw [hdata, List.take_take, Nat.min_self]
    by_cases hend : h.data.length ≤ r.position
    · rw [List.drop_eq_nil_of_le hend, List.take_nil]
      simp
    · rw [htag, if_neg hend]
      rcases hf.etag with hnone | hsame
      · rw [hnone]
        simp
      · rw [hsame]
        simp
  | nothing answer _ hw ha hnil =>
    obtain ⟨hok, hdata, htag⟩ := answer_eq hs hf hw ha
    cases hok
    rw [hdata] at hnil
    have hlen : h.data.length ≤ r.position := by
      rw [List.take_eq_nil_iff, List.drop_eq_nil_iff] at hnil
      exact hnil.resolve_left (Nat.pos_iff_ne_zero.mp hw.wanted_pos)
    rw [if_pos hlen] at htag
    refine ⟨_, said (Or.inr (by omega)), ?_⟩
    have hfinished := (hf.withChunk hw (Or.inl htag)).finished c.pointer 0 hf.pointer_eq
    have hshort : decide (([] : List UInt8).length < c.wanted capacity) = true :=
      decide_eq_true hw.wanted_pos
    unfold Channel.withChunk at hfinished ⊢
    rw [hshort]
    exact hfinished
  | fetched answer _ filled hw ha _ hne hfilled =>
    obtain ⟨hok, hdata, htag⟩ := answer_eq hs hf hw ha
    cases hok
    rw [hdata, List.take_take, Nat.min_self] at hne hfilled
    have hrest : ¬ h.data.length ≤ r.position := fun hle =>
      hne (by rw [List.drop_eq_nil_of_le hle, List.take_nil])
    rw [if_neg hrest] at htag
    have hff := hf.withChunk hw (Or.inr htag)
    rw [← hfilled] at hff
    exact hff.serve (by rw [hfilled]; exact hne) (by rw [hfilled]; exact hw.pointer_lt)

/-! ## The loops -/

/-- **Filling is a plain read.** -/
theorem fill (hs : source.Serves h) (size : Nat) (before : List (List UInt8)) (c : Channel) (s : σ)
    (hf : Follows h r c) :
    (c.fill source size before s).1 = .ok (before.reverse.flatten ++ (r.read h.data size).1)
      ∧ Follows h (r.read h.data size).2 (c.fill source size before s).2.1 := by
  fun_induction Channel.fill source size before c s generalizing r with
  | case1 size before c s hc data after s' hr _ ih =>
    -- the bytes of one read are the first ones of the plain read
    obtain ⟨r', hstep, hf'⟩ := hf.readInto hs (.of_eq hr)
    obtain ⟨count, hsaid, _, hle, rfl, rfl⟩ := hstep.eq_next hc
    have hlen := PlainReader.length_next (Nat.le_trans hle (Nat.min_le_right _ _))
    rw [PlainReader.read_of_bytes hsaid hle]
    rw [hlen] at ih ⊢
    obtain ⟨hres, hfollows⟩ := ih hf'
    refine ⟨?_, hfollows⟩
    rw [hres, List.reverse_cons, List.flatten_append, List.flatten_singleton, List.append_assoc]
  | case2 size before c s hc after s' hr =>
    obtain ⟨r', hstep, hf'⟩ := hf.readInto hs (.of_eq hr)
    obtain ⟨hend, rfl⟩ := hstep.atEnd
    rw [PlainReader.read_of_atEnd (by omega) hend, List.append_nil]
    exact ⟨rfl, hf'⟩
  | case3 size before c s hc fault after s' hr =>
    obtain ⟨r', hstep, -⟩ := hf.readInto hs (.of_eq hr)
    cases hstep
  | case4 size before c s hc =>
    have : size = 0 := by omega
    subst this
    exact ⟨congrArg Except.ok (List.append_nil _).symm, hf⟩

/-- **Draining is a plain read of everything up to the end.** -/
theorem drain (hs : source.Serves h) {size : Int} (hneg : size < 0) (capacity : Nat)
    (hc : 0 < capacity) (before : List (List UInt8)) (c : Channel) (s : σ) (hf : Follows h r c) :
    (c.drain source capacity hc before s).1
        = .ok (before.reverse.flatten ++ (r.read h.data size).1)
      ∧ Follows h (r.read h.data size).2 (c.drain source capacity hc before s).2.1 := by
  fun_induction Channel.drain source capacity hc before c s generalizing r with
  | case1 before c s data after s' hr _ ih =>
    obtain ⟨r', hstep, hf'⟩ := hf.readInto hs (.of_eq hr)
    obtain ⟨count, hsaid, _, hle, rfl, rfl⟩ := hstep.eq_next hc
    rw [PlainReader.read_all_of_bytes hneg hsaid (Nat.le_trans hle (Nat.min_le_right _ _))]
    obtain ⟨hres, hfollows⟩ := ih hf'
    refine ⟨?_, hfollows⟩
    rw [hres, List.reverse_cons, List.flatten_append, List.flatten_singleton, List.append_assoc]
  | case2 before c s after s' hr =>
    obtain ⟨r', hstep, hf'⟩ := hf.readInto hs (.of_eq hr)
    obtain ⟨hend, rfl⟩ := hstep.atEnd
    rw [PlainReader.read_of_atEnd (by omega) hend, List.append_nil]
    exact ⟨rfl, hf'⟩
  | case3 before c s fault after s' hr =>
    obtain ⟨r', hstep, -⟩ := hf.readInto hs (.of_eq hr)
    cases hstep

/-- `read` is a plain read. -/
theorem read (hs : source.Serves h) (size : Int) (hf : Follows h r c) (s : σ) :
    (c.read source size s).1 = .ok (r.read h.data size).1
      ∧ Follows h (r.read h.data size).2 (c.read source size s).2.1 := by
  unfold Channel.read
  rw [if_neg (by rw [hf.isOpen]; decide)]
  by_cases hneg : size < 0
  · rw [if_pos hneg]
    exact hf.drain hs hneg c.chunkSize c.chunkSize_pos [] c s
  · rw [if_neg hneg]
    have hfill := hf.fill hs size.toNat [] c s
    rw [show (size.toNat : Int) = size by omega] at hfill
    exact hfill

/-! ## Operations -/

/-- A channel moved to an offset. -/
theorem movedTo (hf : Follows h r c) (position : Nat) :
    Follows h { r with position := position, ended := false } (c.movedTo position) :=
  ⟨hf.isOpen, rfl, hf.limit_eq, rfl, hf.etag, List.nil_prefix, nofun, nofun⟩

/-- A channel with another limit. Its chunk stays, even where it goes beyond
the limit. -/
theorem setLimit (hf : Follows h r c) (limit : Nat) :
    Follows h { r with limit := limit } { c with limit := limit } :=
  ⟨hf.isOpen, hf.pointer_eq, rfl, hf.unmodified, hf.etag, hf.unread, hf.ended_of_said,
    hf.said_of_ended⟩

/-- A channel with chunks of another size. -/
theorem setChunkSize (hf : Follows h r c) (n : Int) : Follows h r (c.setChunkSize n) :=
  ⟨hf.isOpen, hf.pointer_eq, hf.limit_eq, hf.unmodified, hf.etag, hf.unread, hf.ended_of_said,
    hf.said_of_ended⟩

/-- **Every operation of a following channel is a step of its plain reader**,
and it follows again. -/
theorem perform (hs : source.Serves h) {op : Operation} (hop : op.IsPlain) (hf : Follows h r c)
    (s : σ) :
    ∃ r', PlainReader.Step h.data op r (c.perform source op s).1 r'
      ∧ Follows h r' (c.perform source op s).2.1 := by
  cases op with
  | readInto capacity =>
    rw [perform_readInto]
    exact hf.readInto hs (readInto_step source capacity c s)
  | read size =>
    obtain ⟨hres, hfollows⟩ := hf.read hs size s
    refine ⟨_, ?_, hfollows⟩
    show PlainReader.Step h.data _ r (.ofResult .data (c.read source size s).1) _
    rw [hres]
    exact .read r size
  | seek target =>
    obtain ⟨position, rfl⟩ := hop.seek_eq
    rw [perform_seek, seek_natCast source hf.isOpen]
    exact ⟨_, .seek r position, hf.movedTo position⟩
  | setLimit target =>
    obtain ⟨limit, rfl⟩ := hop.setLimit_eq
    rw [perform_setLimit, setLimit_natCast]
    exact ⟨_, .setLimit r limit, hf.setLimit limit⟩
  | setChunkSize n => exact ⟨r, .setChunkSize r n, hf.setChunkSize n⟩
  | tell =>
    refine ⟨r, ?_, hf⟩
    show PlainReader.Step h.data .tell r (.ofResult .offset c.tell) r
    rw [hf.tell_eq]
    exact .tell r
  | readAndClose size => exact hop.elim
  | close => exact hop.elim

/-- **A run of a following channel is a run of its plain reader.** -/
theorem performAll (hs : source.Serves h) {ops : List Operation} (hops : ∀ op ∈ ops, op.IsPlain)
    (hf : Follows h r c) (s : σ) :
    ∃ r', PlainReader.Runs h.data ops r (performAll source ops c s).1 r'
      ∧ Follows h r' (performAll source ops c s).2.1 := by
  induction ops generalizing r c s with
  | nil => exact ⟨r, .nil r, hf⟩
  | cons op ops ih =>
    obtain ⟨r₁, hstep, hf₁⟩ := hf.perform hs (hops op List.mem_cons_self) s
    obtain ⟨r₂, hruns, hf₂⟩ := ih (fun o ho => hops o (List.mem_cons_of_mem op ho)) hf₁
      (c.perform source op s).2.2
    exact ⟨r₂, .cons hstep hruns, hf₂⟩

end Follows

end Channel

/-! ## The theorem -/

/-- **Chunks are invisible.** A channel just opened over a source that serves
an object, used by any sequence of operations, answers as a plain reader of
the content may, whatever the sizes of chunks, and is always where that reader
is. -/
theorem chunks_invisible {σ : Type} {source : Source σ} {h : Held} (hs : source.Serves h)
    {object : ObjectId} {options : List ReadOption} {c : Channel}
    (hc : Channel.opened object options = .ok c) (ops : List Operation)
    (hops : ∀ op ∈ ops, op.IsPlain) (s : σ) :
    ∃ r, PlainReader.Runs h.data ops .start (Channel.performAll source ops c s).1 r
      ∧ (Channel.performAll source ops c s).2.1.tell = .ok r.position := by
  obtain ⟨r, hruns, hf⟩ := (Channel.follows_opened hc).performAll hs hops s
  exact ⟨r, hruns, hf.tell_eq⟩

/-- Content to try things on: the letters from A to J. -/
def sampleHeld : Held := ⟨[65, 66, 67, 68, 69, 70, 71, 72, 73, 74], some "v1"⟩

/-- A use of a channel with chunks of four bytes and a limit that moves into
a chunk and away again. -/
def sampleUse : List Operation :=
  [.setChunkSize 4, .readInto 3, .setLimit (.int 3), .readInto 2, .setLimit (.int 9), .readInto 0,
    .seek (.int 2), .readInto 9, .read 2, .tell, .read (-1)]

theorem chunks_invisible_sample :
    ∃ c, Channel.opened sampleId [] = .ok c ∧ (∀ op ∈ sampleUse, op.IsPlain)
      ∧ ∃ r, PlainReader.Runs sampleHeld.data sampleUse .start
          (Channel.performAll (sampleHeld.source : Source Unit) sampleUse c ()).1 r
        ∧ (Channel.performAll (sampleHeld.source : Source Unit) sampleUse c ()).2.1.tell
          = .ok r.position := by
  have hops : ∀ op ∈ sampleUse, op.IsPlain := by
    simp [sampleUse, Operation.IsPlain]
  obtain ⟨c, hc⟩ : ∃ c, Channel.opened sampleId [] = .ok c := ⟨_, rfl⟩
  exact ⟨c, hc, hops, chunks_invisible sampleHeld.serves hc sampleUse hops ()⟩

end RangeReader

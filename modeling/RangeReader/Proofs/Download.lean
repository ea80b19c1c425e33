import RangeReader.Held
import RangeReader.Proofs.ReadStep
import RangeReader.RemoteObject

/-!
# A download is of one version

An object may be replaced between any two fetches of a download. Its bytes are
never mixed: either all of them are of one version, or the read fails and says
that the object changed.

They need not be all the bytes of that version. A fetch past the end of the
version that is there has no bytes and no tag, so there is nothing to compare,
and the read is over. Where an object is replaced by a shorter one at the right
time, the download is cut off, and nobody is told. `Downloaded` has the three
ways in which a download may end; there are no others.

What a download has of a version is in `DrawnFrom`: the bytes given so far and
the chunk are the content up to some offset, below the limit.
-/

namespace RangeReader

/-- **An object that is replaced**: the state is the number of fetches made,
and every fetch finds the version of its number. -/
def Source.replaced (versions : Nat → Held) : Source Nat where
  fetch request k := (.ok ((versions k).answer request), k + 1)
  note _ k := k

/-- **Versions that are told apart by their tags.** A version may come back. -/
structure TellApart (versions : Nat → Held) : Prop where
  tagged : ∀ k, (versions k).etag ≠ none
  eq_of_etag_eq : ∀ i k, (versions i).etag = (versions k).etag → versions i = versions k

/-- **How a download ends** that makes its fetches from number `start` on,
before number `stop`. -/
inductive Downloaded (versions : Nat → Held) (name : String) (start stop : Nat) :
    Except Fault (List UInt8) → Prop where
  /-- The content of a version, up to the limit. -/
  | whole (i : Nat) (start_le : start ≤ i) (lt_stop : i < stop) :
    Downloaded versions name start stop (.ok ((versions i).data.take unboundedLimit))
  /-- A part of the content of a version. The last fetch found another version,
  which has nothing behind that part. -/
  | cut (i last length : Nat) (start_le : start ≤ i) (lt_last : i < last)
      (stop_eq : stop = last + 1) (length_pos : 0 < length)
      (length_lt : length < (versions i).data.length)
      (shorter : (versions last).data.length ≤ length) :
    Downloaded versions name start stop (.ok ((versions i).data.take length))
  /-- The last fetch found bytes of another version. -/
  | changed (i last : Nat) (start_le : start ≤ i) (lt_last : i < last) (stop_eq : stop = last + 1)
      (differ : (versions i).etag ≠ (versions last).etag) :
    Downloaded versions name start stop
      (.error (.modified name (versions i).etag (versions last).etag))

namespace Channel

/-! ## What a download has of a version -/

/-- A channel that has not read anything. -/
structure Untouched (taken : List UInt8) (c : Channel) : Prop where
  taken_eq : taken = []
  pointer_eq : c.pointer = 0
  unread_eq : c.unread = []
  not_ended : c.ended = false
  lastEtag_eq : c.lastEtag = none

/-- **Bytes that were taken from a version**, and a channel that goes on with
it. -/
structure DrawnFrom (version : Held) (taken : List UInt8) (c : Channel) : Prop where
  lastEtag_eq : c.lastEtag = version.etag
  taken_eq : taken = version.data.take c.pointer
  unread : c.unread <+: version.data.drop c.pointer
  pointer_le : c.pointer ≤ version.data.length
  reached_pos : 0 < c.pointer + c.unread.length
  reached_le : c.pointer + c.unread.length ≤ c.limit
  ended : c.ended = true → c.pointer + c.unread.length = version.data.length

/-- **A download that goes on**: nothing was read yet, or everything was of one
of the versions fetched. -/
structure Downloading (versions : Nat → Held) (name : String) (start k : Nat)
    (taken : List UInt8) (c : Channel) : Prop where
  isOpen : c.isOpen = true
  unmodified : c.modification = none
  limit_eq : c.limit = unboundedLimit
  name_eq : c.object.text = name
  content : c.Untouched taken ∧ start ≤ k
    ∨ ∃ i, start ≤ i ∧ i < k ∧ c.DrawnFrom (versions i) taken

variable {versions : Nat → Held} {name : String} {start k k' capacity : Nat}
variable {taken : List UInt8} {c after : Channel} {v : Held}

/-- Bytes served from the chunk are the next ones of the version. -/
theorem DrawnFrom.passed (hd : c.DrawnFrom v taken) (n : Nat) :
    (c.passed n).DrawnFrom v (taken ++ c.unread.take n) := by
  have hlen := hd.unread.length_le
  have hle := hd.pointer_le
  rw [List.length_drop] at hlen
  have hpointer : (c.passed n).pointer = c.pointer + min n c.unread.length := by
    rw [pointer_passed, List.length_take]
  have hreached : (c.passed n).pointer + (c.passed n).unread.length
      = c.pointer + c.unread.length := by
    rw [hpointer, unread_passed, List.length_drop]
    omega
  refine ⟨(lastEtag_passed c n).trans hd.lastEtag_eq, ?_, ?_, ?_, ?_, ?_, ?_⟩
  · rw [hpointer, hd.taken_eq, List.take_add, take_unread hd.unread]
  · have hrest := unread_passed_prefix hd.unread n
    rw [List.drop_drop] at hrest
    rw [hpointer]
    exact hrest
  · rw [hpointer]
    omega
  · rw [hreached]
    exact hd.reached_pos
  · rw [hreached, limit_passed]
    exact hd.reached_le
  · rw [hreached, ended_passed]
    exact hd.ended

/-- A chunk just fetched from a version goes on with what was taken of it. -/
theorem DrawnFrom.withChunk (htaken : taken = v.data.take c.pointer)
    (hlt : c.pointer < v.data.length) (hw : c.Fetches capacity) :
    (c.withChunk (c.wanted capacity) v.etag
      ((v.data.drop c.pointer).take (c.wanted capacity))).DrawnFrom v taken := by
  have hpos := hw.wanted_pos
  have hlength : ((v.data.drop c.pointer).take (c.wanted capacity)).length
      = min (c.wanted capacity) (v.data.length - c.pointer) := by
    rw [List.length_take, List.length_drop]
  refine ⟨rfl, htaken, List.take_prefix _ _, Nat.le_of_lt hlt, ?_, ?_, ?_⟩
  · show 0 < c.pointer + ((v.data.drop c.pointer).take (c.wanted capacity)).length
    omega
  · show c.pointer + ((v.data.drop c.pointer).take (c.wanted capacity)).length ≤ c.limit
    have hwanted : c.wanted capacity ≤ c.limit - c.pointer := Nat.min_le_left _ _
    have := hw.pointer_lt
    omega
  · intro hshort
    have hlt : ((v.data.drop c.pointer).take (c.wanted capacity)).length < c.wanted capacity :=
      of_decide_eq_true hshort
    show c.pointer + ((v.data.drop c.pointer).take (c.wanted capacity)).length = v.data.length
    omega

/-- **How a download goes on** after one read. -/
def Continues (versions : Nat → Held) (name : String) (start k : Nat) (taken : List UInt8)
    (after : Channel) : Delivery → Prop
  | .bytes data => after.Downloading versions name start k (taken ++ data)
  | .ended => Downloaded versions name start k (.ok taken)
  | .failed fault => Downloaded versions name start k (.error fault)

theorem answered_replaced (versions : Nat → Held) (capacity : Nat) (c : Channel) (k : Nat) :
    c.answered (Source.replaced versions) capacity k
      = (.ok ((versions k).answer (c.request (c.wanted capacity))), k + 1) :=
  rfl

namespace Downloading

/-- A channel with bytes of its chunk served. -/
theorem passed (hd : c.Downloading versions name start k taken) (hu : c.unread ≠ []) (n : Nat) :
    (c.passed n).Downloading versions name start k (taken ++ c.unread.take n) := by
  have hobject : (c.passed n).object = c.object := congrArg Prod.fst (target_passed c n)
  refine ⟨(isOpen_passed c n).trans hd.isOpen, (modification_passed c n).trans hd.unmodified,
    (limit_passed c n).trans hd.limit_eq, ?_, ?_⟩
  · rw [hobject]
    exact hd.name_eq
  · rcases hd.content with ⟨hfresh, -⟩ | ⟨i, hle, hlt, hdrawn⟩
    · exact absurd hfresh.unread_eq hu
    · exact Or.inr ⟨i, hle, hlt, hdrawn.passed n⟩

/-- Where the limit is reached, everything up to it was taken. -/
theorem whole_of_limit (hd : c.Downloading versions name start k taken)
    (hl : c.limit ≤ c.pointer) : Downloaded versions name start k (.ok taken) := by
  rw [hd.limit_eq] at hl
  rcases hd.content with ⟨hfresh, -⟩ | ⟨i, hle, hlt, hdrawn⟩
  · rw [hfresh.pointer_eq] at hl
    exact absurd hl (by decide)
  · have hreached := hdrawn.reached_le
    rw [hd.limit_eq] at hreached
    have hpointer : c.pointer = unboundedLimit := by omega
    rw [hdrawn.taken_eq, hpointer]
    exact .whole i hle hlt

/-- Where the content of a version is used up, all of it was taken. -/
theorem whole_of_length {i : Nat} (hd : c.Downloading versions name start k taken)
    (hdrawn : c.DrawnFrom (versions i) taken) (hle : start ≤ i) (hlt : i < k')
    (hlength : (versions i).data.length ≤ c.pointer) :
    Downloaded versions name start k' (.ok taken) := by
  have hreached := hdrawn.reached_le
  rw [hd.limit_eq] at hreached
  have hall : taken = (versions i).data.take unboundedLimit := by
    rw [hdrawn.taken_eq, List.take_of_length_le hlength, List.take_of_length_le (by omega)]
  rw [hall]
  exact .whole i hle hlt

/-- An empty answer ends the download, of all or of a part of the version. -/
theorem of_nothing (hd : c.Downloading versions name start k taken) (hw : c.Fetches capacity)
    (hempty : (versions k).data.length ≤ c.pointer) :
    Downloaded versions name start (k + 1) (.ok taken) := by
  rcases hd.content with ⟨hfresh, hle⟩ | ⟨i, hle, hlt, hdrawn⟩
  · have hnil : (versions k).data = [] := by
      rw [hfresh.pointer_eq] at hempty
      exact List.length_eq_zero_iff.mp (Nat.le_zero.mp hempty)
    have hall : taken = (versions k).data.take unboundedLimit := by
      rw [hfresh.taken_eq, hnil, List.take_nil]
    rw [hall]
    exact .whole k hle (Nat.lt_succ_self k)
  -- whether something is missing depends on the version that was read, not on
  -- the one that gave the empty answer
  · by_cases hlength : (versions i).data.length ≤ c.pointer
    · exact hd.whole_of_length hdrawn hle (Nat.lt_succ_of_lt hlt) hlength
    · have hpos := hdrawn.reached_pos
      rw [hw.unread_eq] at hpos
      rw [hdrawn.taken_eq]
      exact .cut i k c.pointer hle hlt rfl hpos (Nat.lt_of_not_le hlength) hempty

/-- **Every read of a download goes on with it or ends it.** -/
theorem readStep {d : Delivery} (hv : TellApart versions)
    (hd : c.Downloading versions name start k taken)
    (step : ReadStep (Source.replaced versions) capacity c k d after k') :
    Continues versions name start k' taken after d := by
  cases step with
  | closed hclosed => exact absurd (hd.isOpen.symm.trans hclosed) (by decide)
  | cutOff _ _ hl => exact hd.whole_of_limit hl
  | served _ hu _ => exact hd.passed hu _
  | atEnd _ hu hended =>
    rcases hd.content with ⟨hfresh, -⟩ | ⟨i, hle, hlt, hdrawn⟩
    · exact absurd (hfresh.not_ended.symm.trans hended) (by decide)
    · have hlength := hdrawn.ended hended
      rw [hu] at hlength
      exact hd.whole_of_length hdrawn hle hlt (Nat.le_of_eq hlength.symm)
  | changed m _ _ _ hm => exact absurd (hd.unmodified.symm.trans hm) (by simp)
  | bounded _ _ _ _ hl => exact hd.whole_of_limit hl
  | noRoom =>
    show c.Downloading versions name start k (taken ++ [])
    rw [List.append_nil]
    exact hd
  | unanswered fault _ _ ha =>
    rw [answered_replaced] at ha
    cases ha
  | refused answer _ hw ha hclash =>
    -- there was a tag to compare with, so some version was read before
    rw [answered_replaced] at ha
    cases ha
    obtain ⟨hne, tag, htag, hother⟩ := (clashes_iff c _ _).mp hclash
    obtain ⟨-, hanswer⟩ := Held.answer_of_data_ne fun hnil => hne (by rw [hnil, List.take_nil])
    rw [hanswer] at hother ⊢
    rcases hd.content with ⟨hfresh, -⟩ | ⟨i, hle, hlt, hdrawn⟩
    · exact absurd (hfresh.lastEtag_eq.symm.trans htag) (by simp)
    · have htags := hdrawn.lastEtag_eq
      show Downloaded versions name start (k + 1)
        (.error (.modified c.object.text c.lastEtag (versions k).etag))
      rw [hd.name_eq, htags]
      refine .changed i k hle hlt rfl fun hsame => hother ?_
      rw [← htag, htags, hsame]
  | nothing answer _ hw ha hnil =>
    rw [answered_replaced] at ha
    cases ha
    refine hd.of_nothing hw ?_
    rw [Held.data_answer, List.take_eq_nil_iff, List.drop_eq_nil_iff] at hnil
    exact hnil.resolve_left (Nat.pos_iff_ne_zero.mp hw.wanted_pos)
  | fetched answer _ filled hw ha hagrees hne hfilled =>
    rw [answered_replaced] at ha
    cases ha
    obtain ⟨hlt, hanswer⟩ := Held.answer_of_data_ne fun hnil => hne (by rw [hnil, List.take_nil])
    rw [hanswer] at hagrees hne hfilled
    -- what was taken before is of the version that is there now
    have htaken : start ≤ k ∧ taken = (versions k).data.take c.pointer := by
      rcases hd.content with ⟨hfresh, hle⟩ | ⟨i, hle, hik, hdrawn⟩
      · refine ⟨hle, ?_⟩
        rw [hfresh.taken_eq, hfresh.pointer_eq, List.take_zero]
      · refine ⟨Nat.le_trans hle (Nat.le_of_lt hik), ?_⟩
        obtain ⟨tag, htag⟩ := Option.ne_none_iff_exists'.mp (hv.tagged i)
        have hsame : (versions i).etag = (versions k).etag := Classical.not_not.mp fun hother => by
          have hclash := (clashes_iff c _ _).mpr ⟨hne, tag, hdrawn.lastEtag_eq.trans htag,
            fun hk => hother (htag.trans hk.symm)⟩
          exact absurd (hagrees.symm.trans hclash) (by decide)
        rw [hdrawn.taken_eq, hv.eq_of_etag_eq i k hsame]
    have hfill : filled.Downloading versions name start (k + 1) taken := by
      rw [hfilled]
      show (c.withChunk (c.wanted capacity) (versions k).etag
        ((((versions k).data.drop c.pointer).take (c.wanted capacity)).take
          (c.wanted capacity))).Downloading versions name start (k + 1) taken
      rw [List.take_take, Nat.min_self]
      exact ⟨hd.isOpen, hd.unmodified, hd.limit_eq, hd.name_eq,
        Or.inr ⟨k, htaken.1, Nat.lt_succ_self k, .withChunk htaken.2 hlt hw⟩⟩
    exact hfill.passed (by rw [hfilled]; exact hne) _

/-- **Draining ends the download** in one of the three ways. -/
theorem drain (hv : TellApart versions) (capacity : Nat) (hc : 0 < capacity)
    (before : List (List UInt8)) (c : Channel) (k : Nat)
    (hd : c.Downloading versions name start k before.reverse.flatten) :
    Downloaded versions name start (c.drain (Source.replaced versions) capacity hc before k).2.2
      (c.drain (Source.replaced versions) capacity hc before k).1 := by
  fun_induction Channel.drain (Source.replaced versions) capacity hc before c k with
  | case1 before c k data after k' hr _ ih =>
    refine ih ?_
    rw [List.reverse_cons, List.flatten_append, List.flatten_singleton]
    exact hd.readStep hv (.of_eq hr)
  | case2 before c k after k' hr => exact hd.readStep hv (.of_eq hr)
  | case3 before c k fault after k' hr => exact hd.readStep hv (.of_eq hr)

/-- A download starts with a channel just opened. -/
theorem opened {object : ObjectId} {options : List ReadOption}
    (hc : Channel.opened object options = .ok c) (start : Nat) :
    c.Downloading versions object.text start start [] := by
  have hfresh := isFresh_of_opened hc
  refine ⟨hfresh.isOpen, hfresh.unmodified, hfresh.limit_eq, ?_, Or.inl ⟨?_, Nat.le_refl start⟩⟩
  · rw [hfresh.object_eq]
  · exact ⟨rfl, hfresh.pointer_eq, hfresh.unread_eq, hfresh.not_ended, hfresh.lastEtag_eq⟩

/-- The size of chunks is nothing to it. -/
theorem setChunkSize (hd : c.Downloading versions name start k []) (n : Int) :
    (c.setChunkSize n).Downloading versions name start k [] := by
  refine ⟨hd.isOpen, hd.unmodified, hd.limit_eq, hd.name_eq, hd.content.imp ?_ ?_⟩
  · rintro ⟨hu, hle⟩
    exact ⟨⟨hu.taken_eq, hu.pointer_eq, hu.unread_eq, hu.not_ended, hu.lastEtag_eq⟩, hle⟩
  · rintro ⟨i, hle, hlt, hd⟩
    exact ⟨i, hle, hlt, hd.lastEtag_eq, hd.taken_eq, hd.unread, hd.pointer_le, hd.reached_pos,
      hd.reached_le, hd.ended⟩

/-- Reading everything is draining. -/
theorem read (hv : TellApart versions) (hd : c.Downloading versions name start k []) :
    Downloaded versions name start (c.read (Source.replaced versions) (-1) k).2.2
      (c.read (Source.replaced versions) (-1) k).1 := by
  unfold Channel.read
  rw [if_neg (by rw [hd.isOpen]; decide), if_pos (by decide)]
  exact drain hv c.chunkSize c.chunkSize_pos [] c k hd

end Downloading

end Channel

/-! ## The theorem -/

/-- **A download is of one version.** However an object is replaced between the
fetches, reading everything from a channel just opened, with chunks of any
size, ends in one of the three ways of `Downloaded`, and so does asking a
remote object for its whole content. -/
theorem download_of_one_version {versions : Nat → Held} (hv : TellApart versions) (start : Nat) :
    (∀ (object : ObjectId) (options : List ReadOption) (c : Channel) (n : Int),
      Channel.opened object options = .ok c →
        Downloaded versions object.text start
          ((c.setChunkSize n).read (Source.replaced versions) (-1) start).2.2
          ((c.setChunkSize n).read (Source.replaced versions) (-1) start).1)
      ∧ ∀ (o : RemoteObject) (options : List ReadOption) (c : Channel),
        o.reader options = .ok c →
          Downloaded versions o.object.text start
            (o.content (Source.replaced versions) options start).2
            (o.content (Source.replaced versions) options start).1 := by
  refine ⟨fun object options c n hc =>
    ((Channel.Downloading.opened hc start).setChunkSize n).read hv, ?_⟩
  intro o options c hc
  obtain ⟨resolved, hopened⟩ := RemoteObject.opened_of_reader hc
  unfold RemoteObject.content
  rw [hc]
  exact (Channel.Downloading.opened hopened start).read hv

/-- An object that is replaced by a shorter one after the first fetch. -/
def sampleShrunk (k : Nat) : Held :=
  if k = 0 then ⟨[65, 66, 67, 68, 69, 70], some "v1"⟩ else ⟨[88], some "v2"⟩

theorem tellApart_sampleShrunk : TellApart sampleShrunk where
  tagged k := by
    unfold sampleShrunk
    split <;> simp
  eq_of_etag_eq i k := by
    unfold sampleShrunk
    split <;> split <;> simp

theorem download_of_one_version_sample :
    ∃ c, Channel.opened sampleId [] = .ok c
      ∧ Downloaded sampleShrunk sampleId.text 0
        ((c.setChunkSize 4).read (Source.replaced sampleShrunk) (-1) 0).2.2
        ((c.setChunkSize 4).read (Source.replaced sampleShrunk) (-1) 0).1 := by
  obtain ⟨c, hc⟩ : ∃ c, Channel.opened sampleId [] = .ok c := ⟨_, rfl⟩
  exact ⟨c, hc, (download_of_one_version tellApart_sampleShrunk 0).1 sampleId [] c 4 hc⟩

/-- **A download that is cut.** After four of six bytes the object is replaced
by one of a single byte; the read ends with the four bytes, which are the
content of neither. -/
theorem download_cut :
    ∃ c, Channel.opened sampleId [] = .ok c
      ∧ ((c.setChunkSize 4).read (Source.replaced sampleShrunk) (-1) 0).1
        = .ok [65, 66, 67, 68]
      ∧ ∀ k, (sampleShrunk k).data ≠ [65, 66, 67, 68] := by
  obtain ⟨c, hc, hopen, after, hfirst, last, hlast⟩ : ∃ c, Channel.opened sampleId [] = .ok c
      ∧ c.isOpen = true
      ∧ ∃ after, (c.setChunkSize 4).readInto (Source.replaced sampleShrunk) 4 0
          = (.bytes [65, 66, 67, 68], after, 1)
        ∧ ∃ last, after.readInto (Source.replaced sampleShrunk) 4 1 = (.ended, last, 2) :=
    ⟨_, rfl, rfl, _, rfl, _, rfl⟩
  refine ⟨c, hc, ?_, fun k => ?_⟩
  · unfold Channel.read
    rw [if_neg (by rw [show (c.setChunkSize 4).isOpen = true from hopen]; decide),
      if_pos (by decide)]
    exact congrArg Prod.fst
      ((Channel.drain_of_bytes hfirst).trans (Channel.drain_of_ended hlast))
  · unfold sampleShrunk
    split <;> decide

end RangeReader

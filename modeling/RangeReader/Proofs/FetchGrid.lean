import RangeReader.Proofs.FailedReads
import RangeReader.Proofs.OverHttp

/-!
# The grid of fetches

Where a channel is read to its end into destinations no greater than a chunk,
its fetches do not depend on the destinations. They lie on a grid (`Grid`) that
starts at the pointer and has the size of chunks as its spacing. Each is for one
cell, the last one cut off at the limit, and a cell is fetched if it starts
below the limit and no later than where the content ends. The first cell is
fetched wherever the content ends.

Two cases are next to each other there. If the content ends where a cell does,
nothing says so before the cell after it was asked for: one fetch gives no
bytes. If the limit is where a cell ends, the channel knows, and it does not ask.

A destination may have no room at all. Such a read gets nowhere and asks for
nothing, so there must be room again and again for the reading to come to an end
(`exists_drains`).
-/

namespace RangeReader

/-! ## The grid -/

/-- **A grid of chunks.** -/
structure Grid where
  /-- Where the first cell starts. -/
  start : Nat
  /-- The size of a cell. -/
  size : Nat
  /-- The offset that no cell reaches beyond. -/
  limit : Nat
  size_pos : 0 < size

namespace Grid

variable {g : Grid} {length i k : Nat}

/-- Where a cell starts. -/
def place (g : Grid) (i : Nat) : Nat := g.start + i * g.size

/-- **The range of a cell**: where it starts, and its length up to the limit. -/
def cell (g : Grid) (i : Nat) : Nat × Nat := (g.place i, min g.size (g.limit - g.place i))

/-- **Whether a cell is fetched**, of content of some length. -/
def IsDue (g : Grid) (length i : Nat) : Prop :=
  g.place i < g.limit ∧ (i = 0 ∨ g.place i ≤ length)

instance (g : Grid) (length i : Nat) : Decidable (g.IsDue length i) :=
  inferInstanceAs (Decidable (_ ∧ _))

/-- **The cells that are fetched**, in order. -/
def requests (g : Grid) (length : Nat) : List (Nat × Nat) :=
  ((List.range g.limit).filter fun i => g.IsDue length i).map g.cell

@[simp] theorem place_zero (g : Grid) : g.place 0 = g.start := by simp [place]

theorem place_succ (g : Grid) (i : Nat) : g.place (i + 1) = g.place i + g.size := by
  unfold place
  rw [Nat.add_mul, Nat.one_mul, Nat.add_assoc]

theorem place_le_place (hik : i ≤ k) : g.place i ≤ g.place k :=
  Nat.add_le_add_left (Nat.mul_le_mul_right _ hik) _

theorem IsDue.of_le (h : g.IsDue length k) (hik : i ≤ k) : g.IsDue length i := by
  have hplace := g.place_le_place hik
  refine ⟨Nat.lt_of_le_of_lt hplace h.1, ?_⟩
  rcases h.2 with rfl | hk
  · exact .inl (Nat.le_zero.mp hik)
  · exact .inr (Nat.le_trans hplace hk)

/-- There are no more cells below the limit than offsets. -/
theorem IsDue.lt_limit (h : g.IsDue length i) : i < g.limit := by
  have hplace : i ≤ i * g.size := Nat.le_mul_of_pos_right i g.size_pos
  have := h.1
  unfold place at this
  omega

/-- **The cells that are fetched are the first ones**, if some number of them are
and the next one is not. -/
theorem requests_eq (hdue : ∀ i < k, g.IsDue length i) (hnot : ¬ g.IsDue length k) :
    g.requests length = (List.range k).map g.cell := by
  have hfirst : ∀ i, g.IsDue length i ↔ i < k := fun i =>
    ⟨fun hi => Nat.lt_of_not_le fun hk => hnot (hi.of_le hk), hdue i⟩
  have hle : k ≤ g.limit := Nat.le_of_not_lt fun hlt =>
    Nat.lt_irrefl _ (hdue g.limit hlt).lt_limit
  obtain ⟨others, hothers⟩ := Nat.exists_eq_add_of_le hle
  unfold requests
  simp only [hfirst]
  rw [hothers, List.range_add, List.filter_append, List.filter_eq_self.mpr (by simp),
    List.filter_eq_nil_iff.mpr (by simp), List.append_nil]

/-- A cell that the limit does not cut off. -/
theorem cell_eq (hle : g.place (i + 1) ≤ g.limit) : g.cell i = (g.place i, g.size) := by
  rw [place_succ] at hle
  rw [cell, Nat.min_eq_left (by omega)]

/-- The cells before a place that the limit is not before. -/
theorem map_cell (hle : g.place k ≤ g.limit) :
    (List.range k).map g.cell = (List.range k).map fun i => (g.place i, g.size) :=
  List.map_congr_left fun _ hi =>
    cell_eq (Nat.le_trans (g.place_le_place (List.mem_range.mp hi)) hle)

/-- **One fetch more than there are chunks** where the content ends with one. -/
theorem requests_of_length_eq (hlength : length = g.place k) (hlt : length < g.limit) :
    g.requests length
      = (List.range k).map (fun i => (g.place i, g.size))
        ++ [(length, min g.size (g.limit - length))] := by
  have hdue : ∀ i < k + 1, g.IsDue length i := fun i hi => by
    have := g.place_le_place (Nat.le_of_lt_succ hi)
    exact ⟨by omega, .inr (by omega)⟩
  have hnot : ¬ g.IsDue length (k + 1) := by
    have := g.size_pos
    rw [IsDue, place_succ]
    omega
  rw [requests_eq hdue hnot, List.range_succ, List.map_append, map_cell (by omega), hlength]
  rfl

/-- **As many fetches as there are chunks** where the limit is the end of one. -/
theorem requests_of_limit_eq (hlimit : g.limit = g.place k) (hle : g.limit ≤ length) :
    g.requests length = (List.range k).map fun i => (g.place i, g.size) := by
  have hdue : ∀ i < k, g.IsDue length i := fun i hi => by
    have hnext := g.place_le_place (Nat.succ_le_of_lt hi)
    have := g.size_pos
    rw [place_succ] at hnext
    exact ⟨by omega, .inr (by omega)⟩
  rw [requests_eq hdue fun hk => absurd hk.1 (by omega), map_cell (by omega)]

end Grid

/-! ## Fetches on a grid -/

/-- **The ranges that were asked for**, by a log: where each starts, and its
length, the first one first. -/
def asked (log : List LogEntry) : List (Nat × Nat) := log.reverse.filterMap LogEntry.range?

theorem asked_fetch (request : RangeRequest) (result : Except Fault Fetched)
    (log : List LogEntry) :
    asked (.fetch request result :: log) = asked log ++ [(request.offset, request.length)] := by
  simp [asked, LogEntry.range?]

/-- A source serves an object with a log or without. -/
theorem Source.Serves.logged {σ : Type} {source : Source σ} {h : Held} (hs : source.Serves h) :
    source.logged.Serves h := fun request s hpos => hs request s.1 hpos

namespace Channel

variable {σ : Type} {source : Source σ} {capacity length k : Nat} {c after : Channel}
variable {t t' : σ × List LogEntry} {log : List LogEntry} {g : Grid} {h : Held} {r : PlainReader}

/-- **The grid of a channel**: from its pointer on, in chunks, up to its limit. -/
def grid (c : Channel) : Grid := ⟨c.pointer, c.chunkSize, c.limit, c.chunkSize_pos⟩

/-- **A channel that fetches on a grid.** It has fetched the first `k` cells. As
long as it may go on and the limit is ahead, the bytes that came end where the next
cell starts, and that one is due. Else it is not. -/
structure OnGrid (g : Grid) (length k : Nat) (c : Channel) (log : List LogEntry) : Prop where
  limit_eq : c.limit = g.limit
  chunkSize_eq : c.chunkSize = g.size
  asked_eq : asked log = (List.range k).map g.cell
  due : ∀ i < k, g.IsDue length i
  next_due : c.ended = false → c.pointer + c.unread.length < g.limit →
    c.pointer + c.unread.length = g.place k ∧ g.IsDue length k
  not_due : c.ended = true ∨ g.limit ≤ c.pointer + c.unread.length → ¬ g.IsDue length k

namespace OnGrid

/-- A channel without a chunk, before its first fetch. -/
theorem start (hu : c.unread = []) (he : c.ended = false) : OnGrid c.grid length 0 c [] where
  limit_eq := rfl
  chunkSize_eq := rfl
  asked_eq := rfl
  due _ hi := absurd hi (Nat.not_lt_zero _)
  next_due _ hlt := by
    rw [hu] at hlt ⊢
    rw [Grid.IsDue, Grid.place_zero]
    exact ⟨rfl, hlt, .inl rfl⟩
  not_due hend hdue := by
    rw [hu, he] at hend
    have := hdue.1
    rw [Grid.place_zero] at this
    exact hend.elim nofun fun hle => absurd this (Nat.not_lt.mpr hle)

/-- What is served of a chunk makes no difference. -/
theorem of_eq (hg : OnGrid g length k c log) (hlimit : after.limit = c.limit)
    (hsize : after.chunkSize = c.chunkSize) (hended : after.ended = c.ended)
    (hplace : after.pointer + after.unread.length = c.pointer + c.unread.length) :
    OnGrid g length k after log where
  limit_eq := hlimit.trans hg.limit_eq
  chunkSize_eq := hsize.trans hg.chunkSize_eq
  asked_eq := hg.asked_eq
  due := hg.due
  next_due := by
    rw [hended, hplace]
    exact hg.next_due
  not_due := by
    rw [hended, hplace]
    exact hg.not_due

/-- A channel that ends at the limit has no more to fetch. -/
theorem bounded (hg : OnGrid g length k c log) (hle : c.limit ≤ c.pointer + c.unread.length)
    (hlimit : after.limit = c.limit) (hsize : after.chunkSize = c.chunkSize)
    (hended : after.ended = true) : OnGrid g length k after log where
  limit_eq := hlimit.trans hg.limit_eq
  chunkSize_eq := hsize.trans hg.chunkSize_eq
  asked_eq := hg.asked_eq
  due := hg.due
  next_due he := absurd (hended.symm.trans he) (by decide)
  not_due _ := hg.not_due (.inr (hg.limit_eq ▸ hle))

/-- **A fetch is for the next cell**, and its answer tells whether the one after it
is due. -/
theorem fetched (hg : OnGrid g length k c log) (hw : c.Fetches capacity)
    (hcapacity : capacity ≤ g.size) (etag : Option String) {data : List UInt8}
    (hdata : data.length = min (c.wanted capacity) (length - c.pointer))
    (result : Except Fault Fetched) :
    OnGrid g length (k + 1) (c.withChunk (c.wanted capacity) etag data)
      (.fetch (c.request (c.wanted capacity)) result :: log) := by
  have hlt := hw.pointer_lt
  have hnext := hg.next_due hw.not_ended
  rw [hw.unread_eq, List.length_nil, Nat.add_zero, ← hg.limit_eq] at hnext
  obtain ⟨hstart, hdue⟩ := hnext hlt
  have hwanted : c.wanted capacity = min g.size (c.limit - c.pointer) := by
    rw [wanted, hg.chunkSize_eq, Nat.max_eq_right hcapacity, Nat.min_comm]
  have hpos := hw.wanted_pos
  have hsucc := g.place_succ k
  refine ⟨hg.limit_eq, hg.chunkSize_eq, ?_, ?_, ?_, ?_⟩
  · rw [asked_fetch, hg.asked_eq, List.range_succ, List.map_append]
    show _ ++ [(c.pointer, c.wanted capacity)] = _ ++ [g.cell k]
    rw [hwanted, hstart, hg.limit_eq]
    rfl
  · intro i hi
    exact hdue.of_le (Nat.le_of_lt_succ hi)
  -- all the bytes came: where they end is the start of a cell, or the limit
  · show decide (data.length < c.wanted capacity) = false → c.pointer + data.length < g.limit →
      c.pointer + data.length = g.place (k + 1) ∧ g.IsDue length (k + 1)
    rw [decide_eq_false_iff_not, ← hg.limit_eq]
    intro hfull hbelow
    refine ⟨by omega, ?_, .inr (by omega)⟩
    rw [← hg.limit_eq]
    omega
  -- not all came, or those up to the limit: there are none from the next cell
  · show decide (data.length < c.wanted capacity) = true ∨ g.limit ≤ c.pointer + data.length →
      ¬ g.IsDue length (k + 1)
    rw [decide_eq_true_eq, Grid.IsDue, ← hg.limit_eq]
    omega

/-- **Every read into a destination no greater than a chunk keeps to the grid.** -/
theorem readStep (hs : source.Serves h) (hf : Follows h r c) (hcapacity : capacity ≤ g.size)
    (hg : OnGrid g h.data.length k c t.2) {d : Delivery}
    (step : ReadStep source.logged capacity c t d after t') :
    ∃ k', OnGrid g h.data.length k' after t'.2 := by
  cases step with
  | closed hclosed => exact absurd (hf.isOpen.symm.trans hclosed) (by decide)
  | cutOff _ _ hl => exact ⟨k, hg.bounded (Nat.le_add_right_of_le hl) rfl rfl rfl⟩
  | served =>
    exact ⟨k, hg.of_eq (limit_passed c _) (chunkSize_passed c _) (ended_passed c _)
      (Tracks.end_passed c _)⟩
  | atEnd => exact ⟨k, hg⟩
  | changed m _ _ _ hm => exact absurd (hf.unmodified.symm.trans hm) (by simp)
  | bounded _ _ _ _ hl => exact ⟨k, hg.bounded (Nat.le_add_right_of_le hl) rfl rfl rfl⟩
  | noRoom => exact ⟨k, hg⟩
  | unanswered fault _ hw ha => exact absurd (hf.answer_eq hs.logged hw ha).1 (by simp)
  | refused answer s' hw ha hclash =>
    obtain ⟨r', hstep, -⟩ := hf.readInto hs.logged (.refused answer s' hw ha hclash)
    exact absurd hstep PlainReader.Step.not_failed
  | nothing answer _ hw ha hnil =>
    obtain ⟨hok, hdata, -⟩ := hf.answer_eq hs.logged hw ha
    cases hok
    rw [log_of_answered ha]
    refine ⟨k + 1, hg.fetched hw hcapacity _ ?_ _⟩
    rw [← hnil, hdata, hf.pointer_eq, List.length_take, List.length_drop]
  | fetched answer _ filled hw ha _ _ hfilled =>
    obtain ⟨hok, hdata, -⟩ := hf.answer_eq hs.logged hw ha
    cases hok
    rw [log_of_answered ha]
    refine ⟨k + 1, of_eq ?_ (limit_passed filled _) (chunkSize_passed filled _)
      (ended_passed filled _) (Tracks.end_passed filled _)⟩
    rw [hfilled]
    refine hg.fetched hw hcapacity _ ?_ _
    rw [hdata, List.take_take, Nat.min_self, hf.pointer_eq, List.length_take, List.length_drop]

end OnGrid

/-! ## Reading to the end -/

/-- **A channel read to its end**, into one destination after the other, with as much
room as a sequence has: the pieces that came before a read said that it is the end. -/
inductive Drains {τ : Type} (source : Source τ) :
    (Nat → Nat) → Channel → τ → List (List UInt8) → Channel → τ → Prop where
  /-- The read that says so. -/
  | ended {rooms : Nat → Nat} {c after : Channel} {s s' : τ}
      (read : c.readInto source (rooms 0) s = (.ended, after, s')) :
    Drains source rooms c s [] after s'
  /-- A piece, and what comes after it. -/
  | piece {rooms : Nat → Nat} {c next after : Channel} {s t s' : τ} {data : List UInt8}
      {pieces : List (List UInt8)} (read : c.readInto source (rooms 0) s = (.bytes data, next, t))
      (others : Drains source (fun i => rooms (i + 1)) next t pieces after s') :
    Drains source rooms c s (data :: pieces) after s'

variable {rooms : Nat → Nat} {pieces : List (List UInt8)}

/-- **Reading to the end fetches the cells of the grid**, and no others. -/
theorem OnGrid.drains (hs : source.Serves h) (hrooms : ∀ i, rooms i ≤ g.size)
    (hf : Follows h r c) (hg : OnGrid g h.data.length k c t.2)
    (hdrains : Drains source.logged rooms c t pieces after t') :
    asked t'.2 = g.requests h.data.length := by
  induction hdrains generalizing r k with
  | ended read =>
    obtain ⟨k', hg'⟩ := hg.readStep hs hf (hrooms 0) (.of_eq read)
    have hended := (ReadStep.of_eq read).at_end.ended
    rw [hg'.asked_eq, Grid.requests_eq hg'.due (hg'.not_due (.inl hended))]
  | piece read others ih =>
    obtain ⟨k', hg'⟩ := hg.readStep hs hf (hrooms 0) (.of_eq read)
    obtain ⟨r', -, hf'⟩ := hf.readInto hs.logged (.of_eq read)
    exact ih (fun i => hrooms (i + 1)) hf' hg'

/-- Without room a read moves nothing. -/
theorem left_of_noRoom {τ : Type} {source : Source τ} {s s' : τ} {data : List UInt8}
    (hread : c.readInto source 0 s = (.bytes data, after, s')) :
    after.limit - after.pointer = c.limit - c.pointer := by
  have hlimit : after.limit = c.limit :=
    congrArg (fun settings => settings.2.1) (settings_readStep (.of_eq hread))
  have hpointer : after.pointer = c.pointer + data.length := pointer_readStep (.of_eq hread)
  have hdata : data.length ≤ min 0 (c.limit - c.pointer) := written_readStep (.of_eq hread)
  omega

/-- **With room again and again, reading comes to an end.** A read with room leaves
less up to the limit, and one without gets nearer to the next destination with room,
which is the `m`-th at the latest. -/
theorem exists_drains {τ : Type} {source : Source τ} {rooms : Nat → Nat} {c : Channel}
    {r : PlainReader} (hs : source.Serves h) (hf : Follows h r c)
    (hroom : ∀ n, ∃ m, n ≤ m ∧ 0 < rooms m) (s : τ) {m : Nat} (hm : 0 < rooms m) :
    ∃ pieces after s', Drains source rooms c s pieces after s' := by
  obtain ⟨d, next, t, hread⟩ : ∃ d next t, c.readInto source (rooms 0) s = (d, next, t) :=
    ⟨_, _, _, rfl⟩
  obtain ⟨r', hstep, hf'⟩ := hf.readInto hs (.of_eq hread)
  cases d with
  | ended => exact ⟨[], next, t, .ended hread⟩
  | failed fault => exact absurd hstep PlainReader.Step.not_failed
  | bytes data =>
    have hroom' : ∀ n, ∃ m, n ≤ m ∧ 0 < rooms (m + 1) := by
      intro n
      obtain ⟨m, hle, hm⟩ := hroom (n + 1)
      exact ⟨m - 1, by omega, by rwa [Nat.sub_add_cancel (by omega)]⟩
    by_cases hzero : rooms 0 = 0
    · obtain ⟨m', rfl⟩ : ∃ m', m = m' + 1 :=
        Nat.exists_eq_succ_of_ne_zero (by rintro rfl; omega)
      rw [hzero] at hread
      have hleft := left_of_noRoom hread
      rw [← hzero] at hread
      obtain ⟨pieces, after, s', hothers⟩ := exists_drains hs hf' hroom' t (m := m') hm
      exact ⟨data :: pieces, after, s', .piece hread hothers⟩
    · have hpos := Nat.pos_of_ne_zero hzero
      have hless := (readInto_bytes hpos hread).room_lt hpos
      obtain ⟨m', -, hm'⟩ := hroom' 0
      obtain ⟨pieces, after, s', hothers⟩ := exists_drains hs hf' hroom' t hm'
      exact ⟨data :: pieces, after, s', .piece hread hothers⟩
termination_by (c.limit - c.pointer, m)
decreasing_by
  · rw [hleft]
    exact .right _ (by omega)
  · exact .left _ _ hless

end Channel

/-! ## Setting up -/

/-- **The operations that set a channel up**: those that neither read nor close it. -/
def Operation.SetsUp : Operation → Prop
  | .seek _ | .setLimit _ | .setChunkSize _ | .tell => True
  | _ => False

namespace Channel

variable {σ : Type} {source : Source σ} {c : Channel} {h : Held}

/-- **A channel that was not read since it was moved.** -/
structure Idle (h : Held) (c : Channel) : Prop where
  unread_eq : c.unread = []
  not_ended : c.ended = false
  follows : ∃ r, Follows h r c

theorem Idle.perform (hi : Idle h c) {op : Operation} (hop : op.SetsUp) (s : σ) :
    Idle h (c.perform source op s).2.1 := by
  obtain ⟨r, hf⟩ := hi.follows
  cases op with
  | seek target =>
    rw [perform_seek, seek_open source hf.isOpen]
    cases bound .position target with
    | error fault => exact hi
    | ok position => exact ⟨rfl, rfl, _, hf.movedTo position⟩
  | setLimit target =>
    rw [perform_setLimit]
    unfold Channel.setLimit
    cases bound .limit target with
    | error fault => exact hi
    | ok limit => exact ⟨hi.unread_eq, hi.not_ended, _, hf.setLimit limit⟩
  | setChunkSize n => exact ⟨hi.unread_eq, hi.not_ended, _, hf.setChunkSize n⟩
  | tell => exact hi
  | readInto capacity => exact hop.elim
  | read size => exact hop.elim
  | readAndClose size => exact hop.elim
  | close => exact hop.elim

theorem Idle.performAll (hi : Idle h c) {setup : List Operation}
    (hsetup : ∀ op ∈ setup, op.SetsUp) (s : σ) :
    Idle h (Channel.performAll source setup c s).2.1 := by
  induction setup generalizing c s with
  | nil => exact hi
  | cons op setup ih =>
    exact ih (hi.perform (hsetup op List.mem_cons_self) s)
      (fun o ho => hsetup o (List.mem_cons_of_mem op ho)) _

/-- **A channel just opened and set up** was not read. -/
theorem idle_of_setup {object : ObjectId} {options : List ReadOption} {fresh : Channel}
    (hc : Channel.opened object options = .ok fresh) {setup : List Operation}
    (hsetup : ∀ op ∈ setup, op.SetsUp) {start s : σ} {outcomes : List Outcome}
    (hrun : Channel.performAll source setup fresh start = (outcomes, c, s)) : Idle h c := by
  have hfresh := isFresh_of_opened hc
  have hidle : Idle h (Channel.performAll source setup fresh start).2.1 :=
    Idle.performAll ⟨hfresh.unread_eq, hfresh.not_ended, _, follows_opened hc⟩ hsetup start
  rw [hrun] at hidle
  exact hidle

end Channel

/-! ## The theorem -/

/-- **The fetches of a channel read to its end** do not depend on the destinations.
Take a channel just opened over a source that serves an object, moved and set up in any
way, and a sequence of destinations none of which is greater than a chunk and which
have room again and again.

* Reading into them comes to an end.
* The ranges asked for until then are the cells of the grid that are due: those that
  start at the pointer or after any number of chunks from there, below the limit, and
  but for the first one no later than the content ends; each is for a chunk, or for what
  there is up to the limit.
* If the content ends with a chunk, below the limit, one more fetch is made there.
* If the limit is the end of a chunk, within the content, none is. -/
theorem fetches_on_grid {σ : Type} {source : Source σ} {h : Held} (hs : source.Serves h)
    {object : ObjectId} {options : List ReadOption} {fresh : Channel}
    (hc : Channel.opened object options = .ok fresh) (setup : List Operation)
    (hsetup : ∀ op ∈ setup, op.SetsUp) (start : σ) {outcomes : List Outcome} {c : Channel} {s : σ}
    (hrun : Channel.performAll source setup fresh start = (outcomes, c, s)) {rooms : Nat → Nat}
    (hrooms : ∀ i, rooms i ≤ c.chunkSize) (hroom : ∀ n, ∃ m, n ≤ m ∧ 0 < rooms m) :
    (∃ pieces after t, Channel.Drains source.logged rooms c (s, []) pieces after t)
      ∧ (∀ pieces after t, Channel.Drains source.logged rooms c (s, []) pieces after t →
        asked t.2 = c.grid.requests h.data.length)
      ∧ (∀ k, h.data.length = c.pointer + k * c.chunkSize → h.data.length < c.limit →
        c.grid.requests h.data.length
          = (List.range k).map (fun i => (c.pointer + i * c.chunkSize, c.chunkSize))
            ++ [(h.data.length, min c.chunkSize (c.limit - h.data.length))])
      ∧ ∀ k, c.limit = c.pointer + k * c.chunkSize → c.limit ≤ h.data.length →
        c.grid.requests h.data.length
          = (List.range k).map fun i => (c.pointer + i * c.chunkSize, c.chunkSize) := by
  obtain ⟨hunread, hended, r, hf⟩ : Channel.Idle h c := Channel.idle_of_setup hc hsetup hrun
  refine ⟨?_, fun pieces after t hdrains => ?_, fun k hlength hlt => ?_, fun k hlimit hle => ?_⟩
  · obtain ⟨m, -, hm⟩ := hroom 0
    exact Channel.exists_drains hs.logged hf hroom _ hm
  · exact (Channel.OnGrid.start hunread hended).drains hs hrooms hf hdrains
  · exact c.grid.requests_of_length_eq hlength hlt
  · exact c.grid.requests_of_limit_eq hlimit hle

/-- Chunks of five bytes from the start, up to twelve. -/
def sampleSetup : List Operation :=
  [.setLimit (.int (-1)), .setLimit (.int 12), .setChunkSize 5, .seek (.int 0)]

/-- Room for three bytes every other time. -/
def sampleRooms (i : Nat) : Nat := if i % 2 = 0 then 0 else 3

theorem fetches_on_grid_sample :
    ∃ fresh outcomes c, Channel.opened sampleId [] = .ok fresh
      ∧ (∀ op ∈ sampleSetup, op.SetsUp)
      ∧ Channel.performAll (sampleHeld.source : Source Unit) sampleSetup fresh ()
        = (outcomes, c, ())
      ∧ (∀ i, sampleRooms i ≤ c.chunkSize) ∧ (∀ n, ∃ m, n ≤ m ∧ 0 < sampleRooms m)
      ∧ ∃ pieces after t,
        Channel.Drains (sampleHeld.source : Source Unit).logged sampleRooms c ((), []) pieces
            after t
          ∧ asked t.2 = [(0, 5), (5, 5), (10, 2)] := by
  have hsetup : ∀ op ∈ sampleSetup, op.SetsUp := by simp [sampleSetup, Operation.SetsUp]
  have hroom : ∀ n, ∃ m, n ≤ m ∧ 0 < sampleRooms m := fun n =>
    ⟨2 * n + 1, by omega, by simp [sampleRooms]⟩
  obtain ⟨fresh, outcomes, c, hopened, hrun, hsize, hgrid⟩ :
      ∃ fresh outcomes c, Channel.opened sampleId [] = .ok fresh
        ∧ Channel.performAll (sampleHeld.source : Source Unit) sampleSetup fresh ()
          = (outcomes, c, ())
        ∧ c.chunkSize = 5 ∧ c.grid.requests sampleHeld.data.length = [(0, 5), (5, 5), (10, 2)] :=
    ⟨_, _, _, rfl, rfl, rfl, by decide⟩
  have hrooms : ∀ i, sampleRooms i ≤ c.chunkSize := fun i => by
    rw [hsize, sampleRooms]
    split <;> omega
  obtain ⟨⟨pieces, after, t, hdrains⟩, hasked, -⟩ := fetches_on_grid sampleHeld.serves hopened
    sampleSetup hsetup () hrun hrooms hroom
  exact ⟨fresh, outcomes, c, hopened, hsetup, hrun, hrooms, hroom, pieces, after, t, hdrains,
    (hasked pieces after t hdrains).trans hgrid⟩

end RangeReader

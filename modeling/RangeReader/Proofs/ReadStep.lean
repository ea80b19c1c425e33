import Mathlib.Data.List.Infix
import RangeReader.Channel.Operation

/-!
# What one read does

`readInto` decides between eleven endings. `ReadStep` lists them, each with
everything that holds when it is the one: the state that leads to it, the
delivery, and the channel and the source afterwards. `readInto_step` says that
the list is complete, and nothing after it opens `readInto` again: a property
of reads is proved ending by ending.

The loops `fill` and `drain` are reads one after the other, so whatever single
reads preserve, they preserve (`fill_preserves`, `drain_preserves`), and the
operations of a channel with them. The first use of this is that no operation
touches what a channel reads: its object, its description and its options
(`target_perform`).
-/

namespace RangeReader

/-- The outcome of one read, by what it gives. -/
def Outcome.ofDelivery : Delivery → Outcome
  | .failed fault => .failed fault
  | d => .delivered d

namespace Channel

variable {σ : Type} {source : Source σ} {capacity : Nat} {c after : Channel} {s s' : σ}

/-! ## The endings of a read -/

/-- The answer to the fetch that a read into room for `capacity` makes, with
the source after it. -/
def answered (source : Source σ) (capacity : Nat) (c : Channel) (s : σ) :
    Except Fault Fetched × σ :=
  source.fetch (c.request (c.wanted capacity))
    (source.note (.fetching (c.wanted capacity) c.object.text c.pointer) s)

/-- **When a read fetches**: the channel is open with no chunk left, it has
neither ended nor noticed a change, and there is room on both sides, below
the limit and at the destination. -/
structure Fetches (c : Channel) (capacity : Nat) : Prop where
  isOpen : c.isOpen = true
  unread_eq : c.unread = []
  not_ended : c.ended = false
  unmodified : c.modification = none
  pointer_lt : c.pointer < c.limit
  capacity_pos : 0 < capacity

/-- A fetch asks for at least one byte. -/
theorem Fetches.wanted_pos (h : c.Fetches capacity) : 0 < c.wanted capacity := by
  have := h.pointer_lt
  have := h.capacity_pos
  unfold wanted
  omega

/-- **The endings of a read**, each with the state that leads to it. -/
inductive ReadStep (source : Source σ) (capacity : Nat) (c : Channel) (s : σ) :
    Delivery → Channel → σ → Prop where
  /-- The channel is closed. -/
  | closed (isOpen : c.isOpen = false) :
    ReadStep source capacity c s (.failed closedFault) c s
  /-- The limit was set to or below the pointer while a chunk was there. -/
  | cutOff (isOpen : c.isOpen = true) (unread : c.unread ≠ []) (limit_le : c.limit ≤ c.pointer) :
    ReadStep source capacity c s .ended
      { c.dropChunk with position := c.pointer, ended := true } s
  /-- Bytes of the present chunk are served. -/
  | served (isOpen : c.isOpen = true) (unread : c.unread ≠ []) (pointer_lt : c.pointer < c.limit) :
    ReadStep source capacity c s (.bytes (c.unread.take (c.allowance capacity)))
      (c.passed (c.allowance capacity)) s
  /-- The end was reached before. -/
  | atEnd (isOpen : c.isOpen = true) (unread : c.unread = []) (ended : c.ended = true) :
    ReadStep source capacity c s .ended c s
  /-- A change of the object was noticed before. -/
  | changed (m : Modification) (isOpen : c.isOpen = true) (unread : c.unread = [])
      (not_ended : c.ended = false) (modification : c.modification = some m) :
    ReadStep source capacity c s (.failed (c.modified m)) c s
  /-- The limit is reached. -/
  | bounded (isOpen : c.isOpen = true) (unread : c.unread = []) (not_ended : c.ended = false)
      (unmodified : c.modification = none) (limit_le : c.limit ≤ c.pointer) :
    ReadStep source capacity c s .ended { c with ended := true } s
  /-- There is no room for a byte, and no chunk. -/
  | noRoom (isOpen : c.isOpen = true) (unread : c.unread = []) (not_ended : c.ended = false)
      (unmodified : c.modification = none) (pointer_lt : c.pointer < c.limit)
      (capacity_eq : capacity = 0) :
    ReadStep source capacity c s (.bytes []) c s
  /-- The fetch fails. -/
  | unanswered (fault : Fault) (s' : σ) (fetches : c.Fetches capacity)
      (answered : c.answered source capacity s = (.error fault, s')) :
    ReadStep source capacity c s (.failed fault) c s'
  /-- The answer is of another content than the bytes before. -/
  | refused (answer : Fetched) (s' : σ) (fetches : c.Fetches capacity)
      (answered : c.answered source capacity s = (.ok answer, s'))
      (clashes : c.clashes answer.etag (answer.data.take (c.wanted capacity)) = true) :
    ReadStep source capacity c s (.failed (c.modified ⟨c.lastEtag, answer.etag⟩))
      { c with modification := some ⟨c.lastEtag, answer.etag⟩ }
      (source.note (.modified c.object.text c.lastEtag answer.etag) s')
  /-- The answer has no bytes. -/
  | nothing (answer : Fetched) (s' : σ) (fetches : c.Fetches capacity)
      (answered : c.answered source capacity s = (.ok answer, s')) (data : answer.data = []) :
    ReadStep source capacity c s .ended (c.withChunk (c.wanted capacity) answer.etag []) s'
  /-- The answer is taken, and bytes of it are served. -/
  | fetched (answer : Fetched) (s' : σ) (filled : Channel) (fetches : c.Fetches capacity)
      (answered : c.answered source capacity s = (.ok answer, s'))
      (agrees : c.clashes answer.etag (answer.data.take (c.wanted capacity)) = false)
      (data : answer.data.take (c.wanted capacity) ≠ [])
      (filled_eq : filled = c.withChunk (c.wanted capacity) answer.etag
        (answer.data.take (c.wanted capacity))) :
    ReadStep source capacity c s (.bytes (filled.unread.take (filled.allowance capacity)))
      (filled.passed (filled.allowance capacity)) s'

/-- Bytes clash where there is a tag to compare with, and theirs is another. -/
theorem clashes_iff (c : Channel) (etag : Option String) (data : List UInt8) :
    c.clashes etag data = true ↔ data ≠ [] ∧ ∃ tag, c.lastEtag = some tag ∧ etag ≠ some tag := by
  unfold clashes
  cases c.lastEtag with
  | none => simp
  | some tag => simp

/-- Bytes of a chunk are the first bytes of the content it is from. -/
theorem take_unread {content : List UInt8} (h : c.unread <+: content) (n : Nat) :
    c.unread.take n = content.take (min n c.unread.length) := by
  rw [List.prefix_iff_eq_take.mp h, List.take_take, ← List.prefix_iff_eq_take.mp h]

/-- What is left of a chunk is of what is left of the content. -/
theorem unread_passed_prefix {content : List UInt8} (h : c.unread <+: content) (n : Nat) :
    (c.passed n).unread <+: content.drop (min n c.unread.length) := by
  rw [unread_passed]
  by_cases hn : n ≤ c.unread.length
  · rw [Nat.min_eq_left hn]
    exact h.drop n
  · rw [List.drop_eq_nil_of_le (Nat.le_of_not_le hn)]
    exact List.nil_prefix

/-- **A fetch ends in one of four ways.** -/
theorem fetchInto_step (h : c.Fetches capacity) :
    ReadStep source capacity c s (c.fetchInto source capacity s).1
      (c.fetchInto source capacity s).2.1 (c.fetchInto source capacity s).2.2 := by
  have hun := h.unmodified
  obtain ⟨result, s', ha⟩ : ∃ result s', c.answered source capacity s = (result, s') :=
    ⟨_, _, rfl⟩
  have hfetch := ha
  unfold answered at hfetch
  unfold fetchInto
  simp only [hfetch]
  cases result with
  | error fault => exact .unanswered fault s' h ha
  | ok answer =>
    show ReadStep source capacity c s (c.accept capacity (c.wanted capacity) answer).1
      (c.accept capacity (c.wanted capacity) answer).2
      (noteChange source c (c.accept capacity (c.wanted capacity) answer).2 s')
    unfold accept
    by_cases hc : c.clashes answer.etag (answer.data.take (c.wanted capacity)) = true
    · rw [if_pos hc]
      unfold noteChange
      rw [hun]
      exact .refused answer s' h ha hc
    · rw [if_neg hc]
      rw [Bool.not_eq_true] at hc
      by_cases hd : answer.data.take (c.wanted capacity) = []
      -- bytes were asked for, so if none are left none came
      · have hnil : answer.data = [] :=
          (List.take_eq_nil_iff.mp hd).resolve_left (by have := h.wanted_pos; omega)
        rw [if_pos (by rw [hd]; rfl)]
        unfold noteChange
        rw [hun, show (c.withChunk (c.wanted capacity) answer.etag
          (answer.data.take (c.wanted capacity))).modification = none from hun, hd]
        exact .nothing answer s' h ha hnil
      · rw [if_neg (by rw [List.isEmpty_iff]; exact hd)]
        unfold noteChange serve
        rw [hun, modification_passed, show (c.withChunk (c.wanted capacity) answer.etag
          (answer.data.take (c.wanted capacity))).modification = none from hun]
        exact .fetched answer s' _ h ha hc hd rfl

/-- **A read ends in one of the eleven ways.** -/
theorem readInto_step (source : Source σ) (capacity : Nat) (c : Channel) (s : σ) :
    ReadStep source capacity c s (c.readInto source capacity s).1
      (c.readInto source capacity s).2.1 (c.readInto source capacity s).2.2 := by
  unfold readInto
  -- the cases are split in the order in which `readInto` asks
  by_cases ho : c.isOpen = true
  · rw [if_neg (by rw [ho]; decide)]
    by_cases hu : c.unread = []
    · rw [if_neg (by rw [hu]; decide)]
      by_cases he : c.ended = true
      · rw [if_pos he]
        exact .atEnd ho hu he
      · rw [if_neg he]
        rw [Bool.not_eq_true] at he
        split
        · rename_i m hm
          exact .changed m ho hu he hm
        · rename_i hm
          by_cases hl : c.limit ≤ c.pointer
          · rw [if_pos hl]
            exact .bounded ho hu he hm hl
          · rw [if_neg hl]
            by_cases hc : capacity = 0
            · rw [if_pos hc]
              exact .noRoom ho hu he hm (Nat.lt_of_not_le hl) hc
            · rw [if_neg hc]
              exact fetchInto_step
                ⟨ho, hu, he, hm, Nat.lt_of_not_le hl, Nat.pos_of_ne_zero hc⟩
    · rw [if_pos (by rw [Bool.not_eq_true', List.isEmpty_eq_false_iff]; exact hu)]
      by_cases hl : c.limit ≤ c.pointer
      · rw [if_pos hl]
        exact .cutOff ho hu hl
      · rw [if_neg hl]
        exact .served ho hu (Nat.lt_of_not_le hl)
  · rw [Bool.not_eq_true] at ho
    rw [if_pos (by rw [ho]; rfl)]
    exact .closed ho

/-- The ending of a read whose results are known. -/
theorem ReadStep.of_eq {d : Delivery} (h : c.readInto source capacity s = (d, after, s')) :
    ReadStep source capacity c s d after s' := by
  have step := readInto_step source capacity c s
  rw [h] at step
  exact step

/-- A read as an operation. -/
theorem perform_readInto (source : Source σ) (capacity : Nat) (c : Channel) (s : σ) :
    c.perform source (.readInto capacity) s
      = (.ofDelivery (c.readInto source capacity s).1, (c.readInto source capacity s).2) := by
  unfold perform
  dsimp only
  rcases c.readInto source capacity s with ⟨d, after, s'⟩
  cases d <;> rfl

theorem perform_seek (source : Source σ) (target : Value) (c : Channel) (s : σ) :
    c.perform source (.seek target) s
      = (.ofResult (fun _ => .done) (c.seek source target s).1, (c.seek source target s).2) :=
  rfl

theorem perform_setLimit (source : Source σ) (target : Value) (c : Channel) (s : σ) :
    c.perform source (.setLimit target) s = match c.setLimit target with
      | .ok c => (.done, c, s)
      | .error fault => (.failed fault, c, s) :=
  rfl

/-! ## Reads one after the other

What a loop does next is decided by its next read. -/

section Loops

variable {size : Nat} {before : List (List UInt8)} {data : List UInt8} {fault : Fault}

theorem drain_of_bytes {hc : 0 < capacity}
    (h : c.readInto source capacity s = (.bytes data, after, s')) :
    c.drain source capacity hc before s = after.drain source capacity hc (data :: before) s' := by
  rw [drain]
  split <;> rename_i hr <;> rw [h] at hr <;> cases hr
  rfl

theorem drain_of_ended {hc : 0 < capacity}
    (h : c.readInto source capacity s = (.ended, after, s')) :
    c.drain source capacity hc before s = (.ok before.reverse.flatten, after, s') := by
  rw [drain]
  split <;> rename_i hr <;> rw [h] at hr <;> cases hr
  rfl

theorem drain_of_failed {hc : 0 < capacity}
    (h : c.readInto source capacity s = (.failed fault, after, s')) :
    c.drain source capacity hc before s = (.error fault, after, s') := by
  rw [drain]
  split <;> rename_i hr <;> rw [h] at hr <;> cases hr
  rfl

theorem fill_of_bytes (hc : 0 < size)
    (h : c.readInto source size s = (.bytes data, after, s')) :
    c.fill source size before s = after.fill source (size - data.length) (data :: before) s' := by
  rw [fill, dif_pos hc]
  split <;> rename_i hr <;> rw [h] at hr <;> cases hr
  rfl

theorem fill_of_ended (hc : 0 < size) (h : c.readInto source size s = (.ended, after, s')) :
    c.fill source size before s = (.ok before.reverse.flatten, after, s') := by
  rw [fill, dif_pos hc]
  split <;> rename_i hr <;> rw [h] at hr <;> cases hr
  rfl

theorem fill_of_failed (hc : 0 < size)
    (h : c.readInto source size s = (.failed fault, after, s')) :
    c.fill source size before s = (.error fault, after, s') := by
  rw [fill, dif_pos hc]
  split <;> rename_i hr <;> rw [h] at hr <;> cases hr
  rfl

theorem fill_of_none (hc : ¬ 0 < size) :
    c.fill source size before s = (.ok before.reverse.flatten, c, s) := by
  rw [fill, dif_neg hc]

end Loops

/-- **What single reads preserve.** -/
def KeptByReads (source : Source σ) (P : Channel → σ → Prop) : Prop :=
  ∀ (capacity : Nat) (c : Channel) (s : σ) (d : Delivery) (after : Channel) (s' : σ),
    P c s → ReadStep source capacity c s d after s' → P after s'

variable {P : Channel → σ → Prop}

/-- What single reads preserve, filling preserves. -/
theorem fill_preserves (hP : KeptByReads source P) (size : Nat) (before : List (List UInt8))
    (c : Channel) (s : σ) (h : P c s) :
    P (c.fill source size before s).2.1 (c.fill source size before s).2.2 := by
  fun_induction fill source size before c s with
  | case1 size before c s hc data after s' hr hpos ih =>
    exact ih (hP _ _ _ _ _ _ h (.of_eq hr))
  | case2 size before c s hc after s' hr => exact hP _ _ _ _ _ _ h (.of_eq hr)
  | case3 size before c s hc fault after s' hr => exact hP _ _ _ _ _ _ h (.of_eq hr)
  | case4 size before c s hc => exact h

/-- What single reads preserve, draining preserves. -/
theorem drain_preserves (hP : KeptByReads source P) (capacity : Nat) (hc : 0 < capacity)
    (before : List (List UInt8)) (c : Channel) (s : σ) (h : P c s) :
    P (c.drain source capacity hc before s).2.1 (c.drain source capacity hc before s).2.2 := by
  fun_induction drain source capacity hc before c s with
  | case1 before c s data after s' hr hlt ih => exact ih (hP _ _ _ _ _ _ h (.of_eq hr))
  | case2 before c s after s' hr => exact hP _ _ _ _ _ _ h (.of_eq hr)
  | case3 before c s fault after s' hr => exact hP _ _ _ _ _ _ h (.of_eq hr)

/-- What single reads preserve, `read` preserves. -/
theorem read_preserves (hP : KeptByReads source P) (size : Int) (c : Channel) (s : σ)
    (h : P c s) : P (c.read source size s).2.1 (c.read source size s).2.2 := by
  unfold read
  split
  · exact h
  · split
    · exact drain_preserves hP _ _ _ c s h
    · exact fill_preserves hP _ _ c s h

/-- **What an operation preserves**: what single reads preserve and closing
does, if the move, the limit or the size of chunks that it may ask for does so
too. -/
theorem perform_preserves {op : Operation} (reads : KeptByReads source P)
    (closed : ∀ (c : Channel) (s : σ), P c s → P { c.dropChunk with isOpen := false } s)
    (moved : ∀ target position, op = .seek target → bound .position target = .ok position →
      P (c.movedTo position) (source.note (.seeking c.object.text position) s))
    (limited : ∀ target limit, op = .setLimit target → bound .limit target = .ok limit →
      P { c with limit := limit } s)
    (resized : ∀ n, op = .setChunkSize n → P (c.setChunkSize n) s) (h : P c s) :
    P (c.perform source op s).2.1 (c.perform source op s).2.2 := by
  have hclose {c : Channel} {s : σ} (h : P c s) : P c.close s := by
    unfold close
    split
    · exact closed c s h
    · exact h
  cases op with
  | readInto capacity =>
    rw [perform_readInto]
    exact reads _ _ _ _ _ _ h (readInto_step source capacity c s)
  | read size => exact read_preserves reads size c s h
  | readAndClose size => exact hclose (read_preserves reads size c s h)
  | seek target =>
    rw [perform_seek]
    unfold seek
    split
    · exact h
    · exact h
    · rename_i hbound
      exact moved target _ rfl hbound
  | setLimit target =>
    rw [perform_setLimit]
    unfold setLimit
    cases hbound : bound .limit target with
    | error fault => exact h
    | ok limit => exact limited target limit rfl hbound
  | setChunkSize n => exact resized n rfl
  | tell => exact h
  | close => exact hclose h

/-- **What every operation preserves, a run preserves.** -/
theorem performAll_preserves
    (hP : ∀ (op : Operation) (c : Channel) (s : σ), P c s →
      P (c.perform source op s).2.1 (c.perform source op s).2.2)
    (ops : List Operation) (h : P c s) :
    P (performAll source ops c s).2.1 (performAll source ops c s).2.2 := by
  induction ops generalizing c s with
  | nil => exact h
  | cons op ops ih => exact ih (hP op c s h)

/-! ## What a channel reads never changes -/

/-- What a channel reads: its object, its description in requests and its
options. -/
def target (c : Channel) : ObjectId × ObjectRecord × List ReadOption :=
  (c.object, c.descriptor, c.options)

theorem target_passed (c : Channel) (n : Nat) : (c.passed n).target = c.target := by
  unfold passed
  split <;> rfl

theorem target_readStep {d : Delivery} (h : ReadStep source capacity c s d after s') :
    after.target = c.target := by
  cases h with
  | served => exact target_passed c _
  | fetched answer s' filled hf ha hc hd hfilled =>
    rw [target_passed, hfilled]
    rfl
  | _ => rfl

/-- **No operation changes what a channel reads.** -/
theorem target_perform (source : Source σ) (op : Operation) (c : Channel) (s : σ) :
    (c.perform source op s).2.1.target = c.target :=
  perform_preserves (P := fun after _ => after.target = c.target)
    (fun _ _ _ _ _ _ h step => (target_readStep step).trans h) (fun _ _ h => h)
    (fun _ _ _ _ => rfl) (fun _ _ _ _ => rfl) (fun _ _ => rfl) rfl

/-- **No run does.** -/
theorem target_performAll (source : Source σ) (ops : List Operation) (c : Channel) (s : σ) :
    (performAll source ops c s).2.1.target = c.target :=
  performAll_preserves (P := fun after _ => after.target = c.target)
    (fun op after s h => (target_perform source op after s).trans h) ops rfl

end Channel

/-- An object to try things on. -/
def sampleId : ObjectId := ⟨"bucket", "name", .null, by decide, by decide⟩

end RangeReader

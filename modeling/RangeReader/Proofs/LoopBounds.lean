import RangeReader.Proofs.SingleReads
import RangeReader.Proofs.WholeObject

/-!
# How many reads a loop makes

A loop that reads until it has enough, or until a read gives nothing more, comes
to an end only if its reads get somewhere. Nothing in the loop says that they
do: a read that gave no bytes, without an end and without a fault, would be made
again for ever, and so might reads from an object that goes on for ever.

Neither happens, whatever the source answers. Bytes are given below the limit
only, and where there is room for one there is at least one
(`advances_readInto`). So every read but the last one takes something off the
distance from the pointer to the limit, and off what is wanted where that is a
number of bytes. `Loop.Runs` is a loop with no more than what it does turn by
turn, as a relation that has a loop only if it ends; every loop has such a run,
with a bound on its reads (`Loop.exists_runs`), and the three loops of this
library are found in it, with their single reads (`Channel.gives`).
-/

namespace RangeReader

namespace Channel

variable {σ τ α β : Type} {source : Source σ} {c after : Channel} {s s' : σ}

/-- **A read with room for a byte that gives bytes gives some**, and all of them
are below the limit. -/
theorem advances_readInto {capacity : Nat} {data : List UInt8} (hc : 0 < capacity)
    (h : c.readInto source capacity s = (.bytes data, after, s')) :
    data ≠ [] ∧ c.pointer + data.length ≤ c.limit := by
  have step := readInto_bytes hc h
  refine ⟨List.length_pos_iff.mp (step.length_pos hc), ?_⟩
  rw [← step.pointer_eq, ← step.limit_eq]
  exact step.pointer_le

/-! ## Loops -/

/-- **A loop of reads**, by what it has made so far. -/
structure Loop (α : Type) where
  /-- The room for the next read; none where it has enough. -/
  room : α → Nat
  /-- What it makes of a piece. -/
  take : List UInt8 → α → α

namespace Loop

/-- **A run of a loop**, with what its reads give. -/
inductive Runs (loop : Loop α) (source : Source σ) :
    α → Channel → σ → List Delivery → α → Channel → σ → Prop where
  /-- It has enough. -/
  | enough {made : α} {c : Channel} {s : σ} (room_eq : loop.room made = 0) :
    Runs loop source made c s [] made c s
  /-- A read without bytes is the last one. -/
  | last {made : α} {c after : Channel} {s s' : σ} {d : Delivery} (room_pos : 0 < loop.room made)
      (read : c.readInto source (loop.room made) s = (d, after, s'))
      (stops : ∀ data, d ≠ .bytes data) :
    Runs loop source made c s [d] made after s'
  /-- A read gives a piece, and the loop goes on with it. -/
  | piece {made final : α} {c next after : Channel} {s t s' : σ} {data : List UInt8}
      {gives : List Delivery} (room_pos : 0 < loop.room made)
      (read : c.readInto source (loop.room made) s = (.bytes data, next, t))
      (others : Runs loop source (loop.take data made) next t gives final after s') :
    Runs loop source made c s (.bytes data :: gives) final after s'

variable {loop : Loop α} {made final : α} {gives : List Delivery}

/-- **No read of a loop gives no bytes** and neither an end nor a fault. -/
theorem Runs.bytes_ne (h : loop.Runs source made c s gives final after s') :
    ∀ d ∈ gives, d ≠ .bytes [] := by
  induction h with
  | enough => exact List.forall_mem_nil _
  | last _ _ stops => exact List.forall_mem_singleton.mpr (stops [])
  | piece room_pos read _ ih =>
    refine List.forall_mem_cons.mpr ⟨?_, ih⟩
    rintro ⟨⟩
    exact (advances_readInto room_pos read).1 rfl

/-- **Every loop comes to an end**, and makes no more reads than a measure says
that every piece makes less. -/
theorem exists_runs (loop : Loop α) (source : Source σ) (measure : α → Channel → Nat)
    (enough : ∀ made c, measure made c = 0 → loop.room made = 0)
    (less : ∀ made c data after, 0 < loop.room made → Advance (loop.room made) data c after →
      measure (loop.take data made) after < measure made c) (made : α) (c : Channel) (s : σ) :
    ∃ gives final after s', loop.Runs source made c s gives final after s'
      ∧ gives.length ≤ measure made c := by
  generalize hbound : measure made c = bound
  induction bound using Nat.strongRecOn generalizing made c s with
  | ind bound ih =>
    subst hbound
    by_cases hroom : loop.room made = 0
    · exact ⟨[], made, c, s, .enough hroom, Nat.zero_le _⟩
    have hpos := Nat.pos_of_ne_zero hroom
    have hmeasure : 0 < measure made c :=
      Nat.pos_of_ne_zero fun hzero => hroom (enough made c hzero)
    obtain ⟨d, next, t, hread⟩ : ∃ d next t,
        c.readInto source (loop.room made) s = (d, next, t) := ⟨_, _, _, rfl⟩
    cases d with
    | bytes data =>
      have hless := less made c data next hpos (readInto_bytes hpos hread)
      obtain ⟨gives, final, after, s', hothers, hlength⟩ := ih _ hless _ next t rfl
      exact ⟨_, final, after, s', .piece hpos hread hothers, Nat.lt_of_le_of_lt hlength hless⟩
    | ended => exact ⟨_, made, next, t, .last hpos hread nofun, hmeasure⟩
    | failed fault => exact ⟨_, made, next, t, .last hpos hread nofun, hmeasure⟩

end Loop

/-- What a loop ends with: the fault of its last read, or what was made. -/
def conclusion (gives : List Delivery) (made : β) : Except Fault β :=
  gives.getLast?.elim (.ok made) (·.conclude made)

theorem conclusion_cons (data : List UInt8) (gives : List Delivery) (made : β) :
    conclusion (.bytes data :: gives) made = conclusion gives made := by
  cases gives with
  | nil => rfl
  | cons d gives =>
    unfold conclusion
    rw [List.getLast?_cons_cons]

/-! ## The loops of this library -/

/-- The loop that reads up to the end, and keeps the pieces, last first. -/
def draining (capacity : Nat) : Loop (List (List UInt8)) where
  room _ := capacity
  take := List.cons

/-- The loop that reads a number of bytes, of which some are still wanted. -/
def filling : Loop (Nat × List (List UInt8)) where
  room made := made.1
  take data made := (made.1 - data.length, data :: made.2)

/-- The loop that passes what it reads on to a sink, and counts it. -/
def copying (write : List UInt8 → τ → τ) (capacity : Nat) : Loop (Nat × τ) where
  room _ := capacity
  take data made := (made.1 + data.length, write data made.2)

variable {capacity : Nat} {gives : List Delivery}

theorem drain_of_runs (hc : 0 < capacity) {before pieces : List (List UInt8)}
    (h : (draining capacity).Runs source before c s gives pieces after s') :
    c.drain source capacity hc before s = (conclusion gives pieces.reverse.flatten, after, s') := by
  induction h with
  | enough room_eq => exact absurd room_eq (Nat.pos_iff_ne_zero.mp hc)
  | @last _ _ _ _ _ d _ read stops =>
    cases d with
    | bytes data => exact absurd rfl (stops data)
    | ended => exact drain_of_ended read
    | failed fault => exact drain_of_failed read
  | piece _ read _ ih =>
    rw [conclusion_cons]
    exact (drain_of_bytes read).trans ih

theorem fill_of_runs {made final : Nat × List (List UInt8)}
    (h : filling.Runs source made c s gives final after s') :
    c.fill source made.1 made.2 s = (conclusion gives final.2.reverse.flatten, after, s') := by
  induction h with
  | enough room_eq => exact fill_of_none (Nat.not_lt.mpr (Nat.le_of_eq room_eq))
  | @last _ _ _ _ _ d room_pos read stops =>
    cases d with
    | bytes data => exact absurd rfl (stops data)
    | ended => exact fill_of_ended room_pos read
    | failed fault => exact fill_of_failed room_pos read
  | piece room_pos read _ ih =>
    rw [conclusion_cons]
    exact (fill_of_bytes room_pos read).trans ih

/-- The single reads of draining are those of a run. -/
theorem drainGives_of_runs (hc : 0 < capacity) {before pieces : List (List UInt8)}
    (h : (draining capacity).Runs source before c s gives pieces after s') :
    c.drainGives source capacity hc s = gives := by
  induction h with
  | enough room_eq => exact absurd room_eq (Nat.pos_iff_ne_zero.mp hc)
  | last _ read stops => exact drainGives_of_last read stops
  | piece _ read _ ih => exact (drainGives_of_bytes read).trans (congrArg _ ih)

/-- The single reads of filling are those of a run. -/
theorem fillGives_of_runs {made final : Nat × List (List UInt8)}
    (h : filling.Runs source made c s gives final after s') :
    c.fillGives source made.1 s = gives := by
  induction h with
  | @enough made c s room_eq =>
    show c.fillGives source (filling.room made) s = []
    rw [room_eq]
    exact fillGives_of_none
  | last room_pos read stops => exact fillGives_of_last room_pos read stops
  | piece room_pos read _ ih => exact (fillGives_of_bytes room_pos read).trans (congrArg _ ih)

theorem copy_of_runs {write : List UInt8 → τ → τ} (hc : 0 < capacity) {made final : Nat × τ}
    (h : (copying write capacity).Runs source made c s gives final after s') :
    c.copy source write capacity hc made.1 made.2 s
      = (conclusion gives final.1, final.2, after, s') := by
  induction h with
  | enough room_eq => exact absurd room_eq (Nat.pos_iff_ne_zero.mp hc)
  | @last _ _ _ _ _ d _ read stops =>
    cases d with
    | bytes data => exact absurd rfl (stops data)
    | ended => exact copy_of_ended read
    | failed fault => exact copy_of_failed read
  | piece _ read _ ih =>
    rw [conclusion_cons]
    exact (copy_of_bytes read).trans ih

/-- The greatest number of reads up to the limit: one for each byte, and one that
finds the end. -/
def mostReads (c : Channel) : Nat := c.limit - c.pointer + 1

/-- **Any loop makes one read for each byte before the limit, and one more.** -/
theorem exists_runs_mostReads (loop : Loop α) (source : Source σ) (made : α) (c : Channel) (s : σ) :
    ∃ gives final after s', loop.Runs source made c s gives final after s'
      ∧ gives.length ≤ c.mostReads :=
  loop.exists_runs source (fun _ c => c.mostReads) (fun _ _ hzero => nomatch hzero)
    (fun _ _ _ _ hroom step => Nat.succ_lt_succ (step.room_lt hroom)) made c s

/-- **Filling makes no more reads than bytes are wanted**, either. -/
theorem exists_runs_filling (source : Source σ) (made : Nat × List (List UInt8)) (c : Channel)
    (s : σ) :
    ∃ gives final after s', filling.Runs source made c s gives final after s'
      ∧ gives.length ≤ min made.1 c.mostReads := by
  refine filling.exists_runs source (fun made c => min made.1 c.mostReads) ?_ ?_ made c s
  · intro made c hzero
    show made.1 = 0
    unfold mostReads at hzero
    omega
  · intro made c data after (hroom : 0 < made.1) step
    have hlength := step.length_pos hroom
    have hlimit := step.room_lt hroom
    show min (made.1 - data.length) after.mostReads < min made.1 c.mostReads
    unfold mostReads
    omega

end Channel

/-! ## The theorem -/

/-- **Loops of reads come to an end**, in any open channel, over any source,
whatever it answers and however it fails.

* A read with room for a byte that gives bytes gives at least one, and none at
  the limit or beyond it.
* Reading up to the end makes at most one read for each byte from the pointer to
  the limit, and one more. So does copying to a sink.
* Reading `n` bytes makes at most so many reads, and at most `n`.
* No read of any of these loops gives no bytes but an end or a fault. The reads of the
  first two are the single reads of `read`, and it gives what they gave. -/
theorem loops_come_to_an_end {σ τ : Type} (source : Source σ) {c : Channel} (ho : c.isOpen = true)
    (s : σ) :
    (∀ capacity data after s', 0 < capacity →
        c.readInto source capacity s = (.bytes data, after, s') →
          data ≠ [] ∧ c.pointer + data.length ≤ c.limit)
      ∧ (∀ size < 0, ∃ gives pieces after s',
        (Channel.draining c.chunkSize).Runs source [] c s gives pieces after s'
          ∧ c.read source size s = (Channel.conclusion gives pieces.reverse.flatten, after, s')
          ∧ c.gives source (.read size) s = gives
          ∧ (∀ bytes, (c.read source size s).1 = .ok bytes →
            bytes = gives.flatMap Delivery.written)
          ∧ gives.length ≤ c.limit - c.pointer + 1 ∧ ∀ d ∈ gives, d ≠ .bytes [])
      ∧ (∀ n : Nat, ∃ gives left pieces after s',
        Channel.filling.Runs source (n, []) c s gives (left, pieces) after s'
          ∧ c.read source n s = (Channel.conclusion gives pieces.reverse.flatten, after, s')
          ∧ c.gives source (.read n) s = gives
          ∧ (∀ bytes, (c.read source n s).1 = .ok bytes → bytes = gives.flatMap Delivery.written)
          ∧ gives.length ≤ min n (c.limit - c.pointer + 1) ∧ ∀ d ∈ gives, d ≠ .bytes [])
      ∧ ∀ (write : List UInt8 → τ → τ) (sink : τ), ∃ gives count sink' after s',
        (Channel.copying write c.chunkSize).Runs source (0, sink) c s gives (count, sink') after s'
          ∧ c.copy source write c.chunkSize c.chunkSize_pos 0 sink s
            = (Channel.conclusion gives count, sink', after, s')
          ∧ gives.length ≤ c.limit - c.pointer + 1 ∧ ∀ d ∈ gives, d ≠ .bytes [] := by
  have hopen : ¬ ((!c.isOpen) = true) := by
    rw [ho]
    decide
  have hwritten (size : Int) (bytes : List UInt8) (h : (c.read source size s).1 = .ok bytes) :
      bytes = (c.gives source (.read size) s).flatMap Delivery.written :=
    Channel.read_written (Prod.ext h rfl)
  refine ⟨fun capacity data after s' hc h => Channel.advances_readInto hc h, fun size hneg => ?_,
    fun n => ?_, fun write sink => ?_⟩
  · obtain ⟨gives, pieces, after, s', hruns, hlength⟩ :=
      Channel.exists_runs_mostReads (Channel.draining c.chunkSize) source [] c s
    have hgives : c.gives source (.read size) s = gives := by
      show c.readGives source size s = gives
      unfold Channel.readGives
      rw [if_neg hopen, if_pos hneg]
      exact Channel.drainGives_of_runs c.chunkSize_pos hruns
    refine ⟨gives, pieces, after, s', hruns, ?_, hgives, hgives ▸ hwritten size, hlength,
      hruns.bytes_ne⟩
    unfold Channel.read
    rw [if_neg hopen, if_pos hneg]
    exact Channel.drain_of_runs c.chunkSize_pos hruns
  · obtain ⟨gives, ⟨left, pieces⟩, after, s', hruns, hlength⟩ :=
      Channel.exists_runs_filling source (n, []) c s
    have hnat : ¬ (n : Int) < 0 := Int.not_lt.mpr (Int.natCast_nonneg n)
    have hgives : c.gives source (.read n) s = gives := by
      show c.readGives source n s = gives
      unfold Channel.readGives
      rw [if_neg hopen, if_neg hnat]
      exact Channel.fillGives_of_runs hruns
    refine ⟨gives, left, pieces, after, s', hruns, ?_, hgives, hgives ▸ hwritten n, hlength,
      hruns.bytes_ne⟩
    unfold Channel.read
    rw [if_neg hopen, if_neg hnat]
    exact Channel.fill_of_runs hruns
  · obtain ⟨gives, ⟨count, sink'⟩, after, s', hruns, hlength⟩ :=
      Channel.exists_runs_mostReads (Channel.copying write c.chunkSize) source (0, sink) c s
    exact ⟨gives, count, sink', after, s', hruns, Channel.copy_of_runs c.chunkSize_pos hruns,
      hlength, hruns.bytes_ne⟩

/-- A source of an object that does not end. -/
def Source.endless : Source Unit where
  fetch request s := (.ok ⟨none, List.replicate request.length 0⟩, s)
  note _ s := s

theorem loops_come_to_an_end_sample :
    ∃ fresh outcomes c, Channel.opened sampleId [] = .ok fresh
      ∧ Channel.performAll Source.endless [.setChunkSize 4, .setLimit (.int 9), .readInto 1] fresh
        () = (outcomes, c, ())
      ∧ c.isOpen = true ∧ c.unread = [0, 0, 0]
      ∧ ∃ gives pieces after s',
        (Channel.draining c.chunkSize).Runs Source.endless [] c () gives pieces after s'
          ∧ c.read Source.endless (-1) ()
            = (Channel.conclusion gives pieces.reverse.flatten, after, s')
          ∧ c.gives Source.endless (.read (-1)) () = gives
          ∧ (∀ bytes, (c.read Source.endless (-1) ()).1 = .ok bytes →
            bytes = gives.flatMap Delivery.written)
          ∧ gives.length ≤ 9 ∧ ∀ d ∈ gives, d ≠ .bytes [] := by
  obtain ⟨fresh, outcomes, c, hfresh, hrun, hopen, hunread, hroom⟩ : ∃ fresh outcomes c,
      Channel.opened sampleId [] = .ok fresh
        ∧ Channel.performAll Source.endless [.setChunkSize 4, .setLimit (.int 9), .readInto 1] fresh
          () = (outcomes, c, ())
        ∧ c.isOpen = true ∧ c.unread = [0, 0, 0] ∧ c.limit - c.pointer + 1 = 9 :=
    ⟨_, _, _, rfl, rfl, rfl, rfl, rfl⟩
  have hends := (loops_come_to_an_end (τ := Unit) Source.endless hopen ()).2.1 (-1) (by decide)
  rw [hroom] at hends
  exact ⟨fresh, outcomes, c, hfresh, hrun, hopen, hunread, hends⟩

end RangeReader

import RangeReader.Proofs.EndOfStream
import RangeReader.Proofs.Interruptions

/-!
# Reads that fail

A single read fails where the channel is closed, where a change of the object
was noticed, now or before, and where the fetch fails, after all the attempts
of a policy if there is one. Wherever it fails, nothing was done that would have
to be undone: the destination is as it was, and so is the channel, but for a
change noticed just now (`ReadStep.of_failed`). A read that failed can be made
again as if it had not been made.

To read more is a loop of such reads, and it does not inherit this. A fault ends
the loop with the pieces of the reads before in hand; they are dropped, and the
channel has passed them. `BreaksOff` has these reads, and what is lost is just
what they gave: nothing only if the first of them is the one that fails, and
never nothing where bytes of a chunk were left to begin with
(`failed_read_loses_pieces`).
-/

namespace RangeReader

namespace Channel

variable {σ : Type} {source : Source σ} {capacity : Nat} {c after : Channel} {s s' : σ}
variable {fault : Fault}

/-! ## One read -/

/-- **What a failed read leaves**: the channel as it was, or the same channel
with a change that the fault is about, of which it knew nothing before. -/
theorem ReadStep.of_failed (step : ReadStep source capacity c s (.failed fault) after s') :
    after = c
      ∨ c.modification = none
        ∧ ∃ m, fault = c.modified m ∧ after = { c with modification := some m } := by
  cases step with
  | closed => exact .inl rfl
  | changed => exact .inl rfl
  | unanswered => exact .inl rfl
  | refused answer _ hf => exact .inr ⟨hf.unmodified, _, rfl, rfl⟩

/-- A read that fails in an open channel leaves it short of the end. -/
theorem ReadStep.not_ended_of_failed (ho : c.isOpen = true)
    (step : ReadStep source capacity c s (.failed fault) after s') :
    c.unread = [] ∧ after.ended = false := by
  cases step with
  | closed hclosed => exact absurd (ho.symm.trans hclosed) (by decide)
  | changed _ _ hu he => exact ⟨hu, he⟩
  | unanswered _ _ hf => exact ⟨hf.unread_eq, hf.not_ended⟩
  | refused _ _ hf => exact ⟨hf.unread_eq, hf.not_ended⟩

/-- What a channel is set to: whether it is open, its limit and the size of its
chunks. -/
def settings (c : Channel) : Bool × Nat × Nat := (c.isOpen, c.limit, c.chunkSize)

theorem settings_passed (c : Channel) (n : Nat) : (c.passed n).settings = c.settings := by
  unfold passed
  split <;> rfl

/-- **No read changes what a channel is set to.** -/
theorem settings_readStep {d : Delivery} (step : ReadStep source capacity c s d after s') :
    after.settings = c.settings := by
  cases step with
  | served => exact settings_passed c _
  | fetched _ _ filled _ _ _ _ hfilled =>
    rw [settings_passed, hfilled]
    rfl
  | _ => rfl

/-- **Checkpoints of channels that read the same**, with the same settings, both of
them at the end or neither: they differ in the position and the tag alone. -/
theorem capture_eq_of_target (htarget : after.target = c.target)
    (hsettings : after.settings = c.settings)
    (hended : (after.ended && after.unread.isEmpty) = (c.ended && c.unread.isEmpty)) :
    Checkpoint.capture after
      = { Checkpoint.capture c with
        position := .int after.pointer
        lastEtag := etagValue after.lastEtag } := by
  have hobject : after.object = c.object := congrArg Prod.fst htarget
  have hoptions : after.options = c.options := congrArg (fun t => t.2.2) htarget
  have hopen : after.isOpen = c.isOpen := congrArg Prod.fst hsettings
  have hlimit : after.limit = c.limit := congrArg (fun t => t.2.1) hsettings
  have hsize : after.chunkSize = c.chunkSize := congrArg (fun t => t.2.2) hsettings
  unfold Checkpoint.capture
  rw [hobject, hoptions, hopen, hlimit, hsize, hended]

/-- A failed read into a window is a failed read, and leaves the window. -/
theorem readWindow_failed {w w' : Window}
    (h : c.readWindow source w s = (.failed fault, w', after, s')) :
    w' = w ∧ c.readInto source w.capacity s = (.failed fault, after, s') := by
  unfold readWindow at h
  rcases hr : c.readInto source w.capacity s with ⟨d, next, s₁⟩
  rw [hr] at h
  cases d with
  | failed fault =>
    cases h
    exact ⟨rfl, rfl⟩
  | bytes data => cases h
  | ended => cases h

/-! ## Reads until one fails -/

/-- **Reads that break off**: with some room each, they give pieces one after the
other, until one fails. -/
inductive BreaksOff (source : Source σ) :
    List Nat → Channel → σ → List (List UInt8) → Fault → Channel → σ → Prop where
  /-- The read that fails. -/
  | failed {room : Nat} {c after : Channel} {s s' : σ} {fault : Fault}
      (read : c.readInto source room s = (.failed fault, after, s')) :
    BreaksOff source [room] c s [] fault after s'
  /-- A read that gives a piece, and those after it. -/
  | piece {room : Nat} {rooms : List Nat} {c next after : Channel} {s t s' : σ}
      {data : List UInt8} {pieces : List (List UInt8)} {fault : Fault}
      (read : c.readInto source room s = (.bytes data, next, t))
      (others : BreaksOff source rooms next t pieces fault after s') :
    BreaksOff source (room :: rooms) c s (data :: pieces) fault after s'

namespace BreaksOff

variable {rooms : List Nat} {pieces : List (List UInt8)}

/-- **The pointer passes the pieces**, and goes no further. -/
theorem pointer_eq (h : BreaksOff source rooms c s pieces fault after s') :
    after.pointer = c.pointer + pieces.flatten.length := by
  induction h with
  | failed read => exact pointer_readStep (.of_eq read)
  | @piece _ _ c next _ _ _ _ data _ _ read _ ih =>
    have hpiece : next.pointer = c.pointer + data.length := pointer_readStep (.of_eq read)
    rw [ih, hpiece, List.flatten_cons, List.length_append, Nat.add_assoc]

/-- The channel is not at the end before, and it has not ended after. -/
theorem not_ended (ho : c.isOpen = true) (h : BreaksOff source rooms c s pieces fault after s') :
    ¬ c.AtEnd ∧ after.ended = false := by
  induction h with
  | failed read =>
    refine ⟨fun hend => ?_, (ReadStep.not_ended_of_failed ho (.of_eq read)).2⟩
    rw [hend.readInto] at read
    cases read
  | piece read _ ih =>
    have hopen := congrArg Prod.fst (settings_readStep (.of_eq read))
    refine ⟨fun hend => ?_, (ih (hopen.trans ho)).2⟩
    rw [hend.readInto] at read
    cases read

/-- What the channel reads and what it is set to stays the same. -/
theorem target_settings_eq (h : BreaksOff source rooms c s pieces fault after s') :
    after.target = c.target ∧ after.settings = c.settings := by
  induction h with
  | failed read => exact ⟨target_readStep (.of_eq read), settings_readStep (.of_eq read)⟩
  | piece read _ ih =>
    exact ⟨ih.1.trans (target_readStep (.of_eq read)), ih.2.trans (settings_readStep (.of_eq read))⟩

/-- **The checkpoint passes the pieces**, and is otherwise what it was, but for
the tag. -/
theorem capture_eq (ho : c.isOpen = true)
    (h : BreaksOff source rooms c s pieces fault after s') :
    Checkpoint.capture after
      = { Checkpoint.capture c with
        position := .int (c.pointer + pieces.flatten.length : Nat)
        lastEtag := etagValue after.lastEtag } := by
  obtain ⟨hstart, hend⟩ := h.not_ended ho
  obtain ⟨htarget, hsettings⟩ := h.target_settings_eq
  have hnot : (c.ended && c.unread.isEmpty) = false := by
    rw [← Bool.not_eq_true, Bool.and_eq_true, List.isEmpty_iff]
    exact fun ⟨hended, hunread⟩ => hstart ⟨ho, hended, hunread⟩
  rw [← h.pointer_eq]
  exact capture_eq_of_target htarget hsettings (by rw [hnot, hend, Bool.false_and])

/-- **The pointer stays only without pieces**, if none of them is empty. -/
theorem pointer_eq_iff (hne : ∀ piece ∈ pieces, piece ≠ [])
    (h : BreaksOff source rooms c s pieces fault after s') :
    after.pointer = c.pointer ↔ pieces = [] := by
  rw [h.pointer_eq, Nat.add_eq_left, List.length_eq_zero_iff, List.flatten_eq_nil_iff]
  constructor
  · intro hempty
    exact List.eq_nil_iff_forall_not_mem.mpr fun piece hmem => hne piece hmem (hempty piece hmem)
  · rintro rfl
    exact List.forall_mem_nil _

/-- **So does the checkpoint.** -/
theorem capture_eq_iff (hne : ∀ piece ∈ pieces, piece ≠ [])
    (h : BreaksOff source rooms c s pieces fault after s') :
    Checkpoint.capture after = Checkpoint.capture c ↔ pieces = [] := by
  constructor
  · intro hsame
    have hposition : Value.int after.pointer = Value.int c.pointer :=
      congrArg Checkpoint.position hsame
    injection hposition with hint
    exact (h.pointer_eq_iff hne).mp (Int.ofNat.inj hint)
  · rintro rfl
    cases h with
    | failed read =>
      -- a change that is noticed has no part in a checkpoint
      rcases (ReadStep.of_eq read).of_failed with rfl | ⟨-, m, -, rfl⟩ <;> rfl

/-- With bytes of a chunk left the first read does not fail. -/
theorem pieces_ne (ho : c.isOpen = true) (hu : c.unread ≠ [])
    (h : BreaksOff source rooms c s pieces fault after s') : pieces ≠ [] := by
  cases h with
  | failed read => exact absurd (ReadStep.not_ended_of_failed ho (.of_eq read)).1 hu
  | piece => exact List.cons_ne_nil _ _

end BreaksOff

/-- **The room for each of the reads that fill a destination**: what the pieces
before have left of it. -/
def roomsLeft : Nat → List (List UInt8) → List Nat
  | size, [] => [size]
  | size, piece :: pieces => size :: roomsLeft (size - piece.length) pieces

/-- **The room for each of the reads that reading `size` bytes makes**: a chunk
every time where it is to go on to the end. -/
def rooms (c : Channel) (size : Int) (pieces : List (List UInt8)) : List Nat :=
  if size < 0 then List.replicate (pieces.length + 1) c.chunkSize
  else roomsLeft size.toNat pieces

variable {before : List (List UInt8)}

/-- Draining that fails breaks off. -/
theorem breaksOff_of_drain {hc : 0 < capacity}
    (h : c.drain source capacity hc before s = (.error fault, after, s')) :
    ∃ pieces, BreaksOff source (List.replicate (pieces.length + 1) capacity) c s pieces fault
        after s'
      ∧ ∀ piece ∈ pieces, piece ≠ [] := by
  fun_induction drain source capacity hc before c s with
  | case1 before c s data next t hr _ ih =>
    obtain ⟨pieces, hothers, hne⟩ := ih h
    refine ⟨data :: pieces, .piece hr hothers, List.forall_mem_cons.mpr ⟨?_, hne⟩⟩
    exact List.length_pos_iff.mp ((readInto_bytes hc hr).length_pos hc)
  | case2 before c s next t hr => cases h
  | case3 before c s fault next t hr =>
    cases h
    exact ⟨[], .failed hr, List.forall_mem_nil _⟩

/-- Filling that fails breaks off, with less than what was to be filled. -/
theorem breaksOff_of_fill {size : Nat}
    (h : c.fill source size before s = (.error fault, after, s')) :
    ∃ pieces, BreaksOff source (roomsLeft size pieces) c s pieces fault after s'
      ∧ (∀ piece ∈ pieces, piece ≠ []) ∧ pieces.flatten.length < size := by
  fun_induction fill source size before c s with
  | case1 size before c s hc data next t hr _ ih =>
    obtain ⟨pieces, hothers, hne, hlength⟩ := ih h
    have hpos := (readInto_bytes hc hr).length_pos hc
    refine ⟨data :: pieces, .piece hr hothers,
      List.forall_mem_cons.mpr ⟨List.length_pos_iff.mp hpos, hne⟩, ?_⟩
    rw [List.flatten_cons, List.length_append]
    omega
  | case2 size before c s hc next t hr => cases h
  | case3 size before c s hc fault next t hr =>
    cases h
    exact ⟨[], .failed hr, List.forall_mem_nil _, hc⟩
  | case4 size before c s hc => cases h

/-- **Reading that fails breaks off**, short of the number of bytes asked for. -/
theorem breaksOff_of_read (ho : c.isOpen = true) {size : Int}
    (h : c.read source size s = (.error fault, after, s')) :
    ∃ pieces, BreaksOff source (c.rooms size pieces) c s pieces fault after s'
      ∧ (∀ piece ∈ pieces, piece ≠ [])
      ∧ (size < 0 ∨ (pieces.flatten.length : Int) < size) := by
  unfold read at h
  unfold rooms
  rw [if_neg (by rw [ho]; decide)] at h
  by_cases hneg : size < 0
  · rw [if_pos hneg] at h
    obtain ⟨pieces, hbreaks, hne⟩ := breaksOff_of_drain h
    refine ⟨pieces, ?_, hne, .inl hneg⟩
    rw [if_pos hneg]
    exact hbreaks
  · rw [if_neg hneg] at h
    obtain ⟨pieces, hbreaks, hne, hlength⟩ := breaksOff_of_fill h
    refine ⟨pieces, ?_, hne, .inr (by omega)⟩
    rw [if_neg hneg]
    exact hbreaks

end Channel

/-! ## The theorems -/

/-- **A failed read changes nothing.** Take a channel in any state, over any
source, with a retry policy behind it or without, and a read into any window
that fails.

* The memory of the window is as it was.
* The channel is as it was in all its parts but the change noticed. If that is
  another one than before, there was none before, and the fault is about it.
* Without a change noticed, the same read over any source, in whatever state it
  is in by now, does what it would have done had there been no failure. -/
theorem failed_read_changes_nothing {σ : Type} (source : Source σ) (w : Window) (c : Channel)
    (s : σ) {fault : Fault} {w' : Window} {after : Channel} {s' : σ}
    (h : c.readWindow source w s = (.failed fault, w', after, s')) :
    w' = w
      ∧ { after with modification := c.modification } = c
      ∧ (after.modification ≠ c.modification →
        c.modification = none ∧ ∃ m, after.modification = some m ∧ fault = c.modified m)
      ∧ (after.modification = none → ∀ {τ : Type} (source' : Source τ) (t : τ),
        after.readWindow source' w' t = c.readWindow source' w t) := by
  obtain ⟨rfl, hread⟩ := Channel.readWindow_failed h
  rcases (Channel.ReadStep.of_eq hread).of_failed with rfl | ⟨hnone, m, hfault, rfl⟩
  · exact ⟨rfl, rfl, fun hchanged => absurd rfl hchanged, fun _ _ _ _ => rfl⟩
  · exact ⟨rfl, rfl, fun _ => ⟨hnone, m, rfl, hfault⟩, fun hkept => nomatch hkept⟩

/-- Ten bytes from a source that may be interrupted, behind three attempts. -/
def Source.unsteady : Source (Interrupted Unit) :=
  (sampleHeld.source : Source Unit).interrupted.retrying threeAttempts

/-- A connection that is lost. -/
def connectionLost : Fault := .foreign (.session .connection) none

/-- One fault for each of the three attempts. -/
def outage : List Fault := List.replicate 3 connectionLost

theorem failed_read_changes_nothing_sample :
    ∃ c w' after t, Channel.opened sampleId [] = .ok c
      ∧ c.readWindow Source.unsteady ⟨[1, 2, 3, 4, 5], 1, 4⟩ ⟨(), [outage], []⟩
        = (.failed (.exhausted (some connectionLost) 3), w', after, t)
      ∧ w' = ⟨[1, 2, 3, 4, 5], 1, 4⟩ ∧ { after with modification := c.modification } = c
      ∧ (after.readWindow Source.unsteady w' t).2.1 = ⟨[1, 65, 66, 67, 5], 1, 4⟩ := by
  obtain ⟨c, w', after, t, hc, hread, hkept, hnext⟩ : ∃ c w' after t,
      Channel.opened sampleId [] = .ok c
        ∧ c.readWindow Source.unsteady ⟨[1, 2, 3, 4, 5], 1, 4⟩ ⟨(), [outage], []⟩
          = (.failed (.exhausted (some connectionLost) 3), w', after, t)
        ∧ after.modification = none
        ∧ (c.readWindow Source.unsteady ⟨[1, 2, 3, 4, 5], 1, 4⟩ t).2.1
          = ⟨[1, 65, 66, 67, 5], 1, 4⟩ := ⟨_, _, _, _, rfl, rfl, rfl, rfl⟩
  obtain ⟨hwindow, hchannel, -, hagain⟩ := failed_read_changes_nothing _ _ _ _ hread
  refine ⟨c, w', after, t, hc, hread, hwindow, hchannel, ?_⟩
  rw [hagain hkept]
  exact hnext

/-- **Reading that fails loses what it has read.** Take an open channel in any
state, over any source, and a number of bytes to read, or all there are.

* Reading breaks off: some reads give pieces, each into the room that is left,
  and the next one fails. The pieces are not empty, and together they are less
  than what was asked for.
* The pointer has passed the pieces, and so has the position of the checkpoint,
  of which nothing else has changed but the tag.
* So the pointer is where it was, and the checkpoint what it was, if and only if
  the first read was the one that failed. It never is while bytes of a chunk are
  left. -/
theorem failed_read_loses_pieces {σ : Type} (source : Source σ) {c : Channel}
    (ho : c.isOpen = true) (size : Int) (s : σ) {fault : Fault} {after : Channel} {s' : σ}
    (h : c.read source size s = (.error fault, after, s')) :
    ∃ pieces : List (List UInt8),
      Channel.BreaksOff source (c.rooms size pieces) c s pieces fault after s'
        ∧ (∀ piece ∈ pieces, piece ≠ [])
        ∧ (size < 0 ∨ (pieces.flatten.length : Int) < size)
        ∧ after.tell = .ok (c.pointer + pieces.flatten.length)
        ∧ Checkpoint.capture after
          = { Checkpoint.capture c with
            position := .int (c.pointer + pieces.flatten.length : Nat)
            lastEtag := etagValue after.lastEtag }
        ∧ (after.tell = c.tell ↔ pieces = [])
        ∧ (Checkpoint.capture after = Checkpoint.capture c ↔ pieces = [])
        ∧ (c.unread ≠ [] → pieces ≠ []) := by
  obtain ⟨pieces, hbreaks, hne, hless⟩ := Channel.breaksOff_of_read ho h
  have hopen : after.isOpen = true := (congrArg Prod.fst hbreaks.target_settings_eq.2).trans ho
  refine ⟨pieces, hbreaks, hne, hless, ?_, hbreaks.capture_eq ho, ?_, hbreaks.capture_eq_iff hne,
    hbreaks.pieces_ne ho⟩
  · rw [Channel.tell_open hopen, hbreaks.pointer_eq]
  · rw [Channel.tell_open hopen, Channel.tell_open ho, Except.ok.injEq]
    exact hbreaks.pointer_eq_iff hne

/-- **Reading that meets an outage.** Chunks have four bytes, the first of them
was fetched, and two bytes of it were read. Reading four more takes the two that
are left, and then the fetch of the next chunk is given up. -/
theorem read_of_outage :
    ∃ fresh c t after u, Channel.opened sampleId [] = .ok fresh
      ∧ (Channel.performAll Source.unsteady [.setChunkSize 4, .readInto 2] fresh
          ⟨(), [[], outage], []⟩).2 = (c, t)
      ∧ c.isOpen = true ∧ c.unread = [67, 68] ∧ c.tell = .ok 2
      ∧ c.read Source.unsteady 4 t = (.error (.exhausted (some connectionLost) 3), after, u)
      ∧ after.tell = .ok 4 := by
  obtain ⟨fresh, c, t, next, v, after, u, hfresh, hrun, hopen, hunread, htell, hfirst, hsecond,
      htell'⟩ :
      ∃ fresh c t next v after u, Channel.opened sampleId [] = .ok fresh
        ∧ (Channel.performAll Source.unsteady [.setChunkSize 4, .readInto 2] fresh
            ⟨(), [[], outage], []⟩).2 = (c, t)
        ∧ c.isOpen = true ∧ c.unread = [67, 68] ∧ c.tell = .ok 2
        ∧ c.readInto Source.unsteady 4 t = (.bytes [67, 68], next, v)
        ∧ next.readInto Source.unsteady 2 v
          = (.failed (.exhausted (some connectionLost) 3), after, u)
        ∧ after.tell = .ok 4 :=
    ⟨_, _, _, _, _, _, _, rfl, rfl, rfl, rfl, rfl, rfl, rfl, rfl⟩
  refine ⟨fresh, c, t, after, u, hfresh, hrun, hopen, hunread, htell, ?_, htell'⟩
  unfold Channel.read
  rw [if_neg (by rw [hopen]; decide), if_neg (by decide)]
  exact (Channel.fill_of_bytes (by decide) hfirst).trans
    (Channel.fill_of_failed (by decide) hsecond)

theorem failed_read_loses_pieces_sample :
    ∃ c : Channel, ∃ t fault after u, c.isOpen = true ∧ c.unread ≠ []
      ∧ c.read Source.unsteady 4 t = (.error fault, after, u) ∧ after.tell ≠ c.tell := by
  obtain ⟨-, c, t, after, u, -, -, hopen, hunread, -, hread, -⟩ := read_of_outage
  have hleft : c.unread ≠ [] := by
    rw [hunread]
    exact List.cons_ne_nil _ _
  obtain ⟨pieces, -, -, -, -, -, htell, -, hsome⟩ :=
    failed_read_loses_pieces Source.unsteady hopen 4 t hread
  exact ⟨c, t, _, after, u, hopen, hleft, hread, fun hsame => hsome hleft (htell.mp hsame)⟩

/-- **Bytes that no one was given**: a read that fails may leave `tell`, and the
position of the checkpoint, further on than they were. -/
theorem bytes_lost_by_failed_read :
    ¬ ∀ (σ : Type) (source : Source σ) (c : Channel), c.Made →
      ∀ (ops : List Operation) (s : σ) (now : Channel) (t : σ),
        (Channel.performAll source ops c s).2 = (now, t) → now.isOpen = true →
        ∀ (size : Int) (fault : Fault) (after : Channel) (t' : σ),
          now.read source size t = (.error fault, after, t') →
            after.tell = now.tell
              ∧ (Checkpoint.capture after).position = (Checkpoint.capture now).position := by
  intro hkept
  obtain ⟨fresh, c, t, after, u, hfresh, hrun, hopen, -, htell, hread, htell'⟩ := read_of_outage
  obtain ⟨hsame, -⟩ := hkept _ _ _ (.opened hfresh) _ _ _ _ hrun hopen _ _ _ _ hread
  rw [htell, htell'] at hsame
  cases hsame

end RangeReader

import RangeReader.Proofs.Chunking
import RangeReader.Proofs.Simulation
import RangeReader.Proofs.Token

/-!
# Handing over is invisible

A reader may give up a channel between any two operations, keep a token of it,
and take up the read later from another source of the same object. The results
of all operations are those of the one channel that was never given up.

The two runs go different ways. A channel that takes up a read (`resumed`) has
no chunk: it fetches again what was fetched and not served, its chunks fall
elsewhere, and it does not know that the end is near where the old one knew
it. What they share is the plain reader that both follow. So it is enough that
handing over keeps what is followed (`Follows.resumed`), that every operation
gives the same on any two channels that follow one reader
(`Follows.perform_eq`), and that there is always a token: `Transferable` is
what stays true for that.
-/

namespace RangeReader

/-- The offsets that a token can hold are below this. -/
def wordLimit : Nat := 0x10000000000000000

theorem isWord_natCast {n : Nat} (h : n < wordLimit) : IsWord n := by
  unfold wordLimit at h
  unfold IsWord
  omega

/-! ## One channel in the place of another -/

namespace Channel

/-- **A channel in the place of another**, which has gone through a token. -/
def handedOver [Nesting] (c : Channel) : Except Fault Channel := do
  let token ← (Checkpoint.capture c).token
  let p ← Checkpoint.ofToken token
  p.restore

/-- **What takes up the read of a channel**: a channel at the next byte,
without a chunk. It has ended where the old one had nothing left to serve. -/
def resumed (c : Channel) : Channel :=
  { c.dropChunk with
    position := c.pointer
    ended := c.ended && c.unread.isEmpty
    modification := none }

/-- The numbers of a channel that a token must have room for. -/
structure Bounded (c : Channel) : Prop where
  pointer_lt : c.pointer < wordLimit
  limit_lt : c.limit < wordLimit
  chunkSize_lt : c.chunkSize < wordLimit

end Channel

namespace Checkpoint

/-- **An object and options that a token can hold.** -/
structure HoldsTarget [Nesting] (object : ObjectId) (options : List ReadOption) : Prop where
  bucket : (Text.Utf8.encode object.bucket).length < sizeLimit
  name : (Text.Utf8.encode object.name).length < sizeLimit
  generation : object.generation = .null ∨ ∃ n, object.generation = .int n ∧ IsWord n
  options_length : options.length < sizeLimit
  options : ∀ o ∈ options, o.value.Portable (nestingLimit - 3)

/-- The generation of such an object is an optional integer that a token can
hold. -/
theorem HoldsTarget.generation_eq [Nesting] {object : ObjectId} {options : List ReadOption}
    (h : HoldsTarget object options) :
    ∃ n : Option Int, object.generation = n.elim .null .int ∧ ∀ m, n = some m → IsWord m := by
  rcases h.generation with hnull | ⟨n, hn, hword⟩
  · exact ⟨none, hnull, nofun⟩
  · exact ⟨some n, hn, fun m hm => Option.some.inj hm ▸ hword⟩

variable {c fresh : Channel}

/-- The checkpoint of a channel fits into a token. -/
theorem fits_capture [Nesting] (ht : HoldsTarget c.object c.options) (hc : c.Bounded)
    (htag : ∀ t, c.lastEtag = some t → (Text.Utf8.encode t).length < sizeLimit) :
    ∃ content, (capture c).Fits content := by
  obtain ⟨generation, hgeneration, hword⟩ := ht.generation_eq
  refine ⟨{
    bucket := c.object.bucket
    name := c.object.name
    generation := generation
    options := namedOptions c.options
    position := c.pointer
    isOpen := c.isOpen
    ended := c.ended && c.unread.isEmpty
    chunkSize := c.chunkSize
    limit := c.limit
    lastEtag := c.lastEtag }, ?_⟩
  exact {
    bucket := rfl
    bucket_fits := ht.bucket
    name := rfl
    name_fits := ht.name
    generation := hgeneration
    generation_fits := hword
    options := rfl
    options_fit := ⟨ht.options_length, ht.options⟩
    position := rfl
    position_fits := isWord_natCast hc.pointer_lt
    isOpen := rfl
    ended := rfl
    chunkSize := rfl
    chunkSize_fits := isWord_natCast hc.chunkSize_lt
    limit := rfl
    limit_fits := isWord_natCast hc.limit_lt
    lastEtag := rfl
    lastEtag_fits := htag }

/-- **A checkpoint is restored as the channel that takes up the read.** -/
theorem restore_capture (hc : Channel.opened c.object c.options = .ok fresh)
    (ht : c.target = fresh.target) : (capture c).restore = .ok c.resumed := by
  have hsize : Channel.chunkSizeOf c.chunkSize = c.chunkSize := by
    have := c.chunkSize_pos
    unfold Channel.chunkSizeOf
    rw [if_neg (by omega)]
    rfl
  -- what restoring does not set is as in a fresh channel: no chunk, no change
  have hresumed : ({ fresh.setChunkSize c.chunkSize with
      position := c.pointer
      isOpen := c.isOpen
      ended := c.ended && c.unread.isEmpty
      limit := c.limit
      lastEtag := c.lastEtag } : Channel) = c.resumed := by
    unfold Channel.opened at hc
    split at hc
    · cases hc
    · cases hc
      have hdescriptor : c.descriptor = _ := congrArg (fun t => t.2.1) ht
      unfold Channel.setChunkSize Channel.resumed Channel.dropChunk
      simp only [hsize, hdescriptor]
      rfl
  unfold restore
  simp only [capture, Channel.bound_natCast, ok_bind, hc]
  rw [← hresumed]
  cases c.lastEtag with
  | none => rfl
  | some tag => rfl

end Checkpoint

/-- **A channel that fits into a token is handed over** as the channel that takes
up its read. -/
theorem Channel.handedOver_eq [Nesting] {c fresh : Channel}
    (hc : Channel.opened c.object c.options = .ok fresh) (hfresh : c.target = fresh.target)
    (ht : Checkpoint.HoldsTarget c.object c.options) (hb : c.Bounded)
    (htag : ∀ t, c.lastEtag = some t → (Text.Utf8.encode t).length < sizeLimit) :
    c.handedOver = .ok c.resumed := by
  obtain ⟨content, hfits⟩ := Checkpoint.fits_capture ht hb htag
  obtain ⟨token, hwrite, hread⟩ := Checkpoint.ofToken_token hfits rfl rfl
  unfold Channel.handedOver
  rw [hwrite, Checkpoint.ok_bind, hread, Checkpoint.ok_bind]
  exact Checkpoint.restore_capture hc hfresh

/-! ## What stays true of a channel in use -/

namespace Operation

/-- **The operations that chunks do not show in**, among those that leave a
channel open: all but single reads, which may give more or fewer bytes. -/
def HidesChunks : Operation → Prop
  | .read _ | .seek _ | .setLimit _ | .setChunkSize _ | .tell => True
  | _ => False

/-- The integers of an operation are such that a token can hold them. -/
def InRange : Operation → Prop
  | .seek target | .setLimit target => ∀ n, target = .int n → IsWord n
  | .setChunkSize n => IsWord n
  | _ => True

end Operation

namespace Channel

variable {σ : Type} {source source' : Source σ} {capacity : Nat} {c c' after fresh : Channel}
variable {s s' : σ} {h : Held} {r : PlainReader}

theorem bound_lt {what : Bound} {target : Value} {n : Nat} (ht : ∀ m, target = .int m → IsWord m)
    (hb : bound what target = .ok n) : n < wordLimit := by
  cases target with
  | int m =>
    have hword := (ht m rfl).2
    unfold bound at hb
    simp only at hb
    split at hb
    · cases hb
    · cases hb
      unfold wordLimit
      omega
  | _ => cases hb

/-- The size of chunks is in range, if the integer that asks for it is. -/
theorem chunkSizeOf_lt {n : Int} (h : IsWord n) : chunkSizeOf n < wordLimit := by
  have hn : n < 0x10000000000000000 := h.2
  unfold chunkSizeOf defaultChunkSize wordLimit
  split <;> omega

namespace Bounded

/-- Bytes are served below the limit only. -/
theorem passed (hc : c.Bounded) (hl : c.pointer < c.limit) :
    (c.passed (c.allowance capacity)).Bounded where
  pointer_lt := by
    have := hc.limit_lt
    rw [pointer_passed, List.length_take, allowance]
    omega
  limit_lt := by
    rw [limit_passed]
    exact hc.limit_lt
  chunkSize_lt := by
    rw [chunkSize_passed]
    exact hc.chunkSize_lt

theorem readStep {d : Delivery} (hc : c.Bounded) (step : ReadStep source capacity c s d after s') :
    after.Bounded := by
  cases step with
  | served _ _ hl => exact hc.passed hl
  | fetched answer _ filled hw _ _ _ hfilled =>
    have hfb : filled.Bounded := by
      rw [hfilled]
      exact ⟨hc.pointer_lt, hc.limit_lt, hc.chunkSize_lt⟩
    refine hfb.passed ?_
    rw [hfilled]
    exact hw.pointer_lt
  | _ => exact ⟨hc.pointer_lt, hc.limit_lt, hc.chunkSize_lt⟩

/-- **Operations with numbers in range keep the numbers of a channel in
range.** -/
theorem perform {op : Operation} (hop : op.InRange) (hc : c.Bounded) :
    (c.perform source op s).2.1.Bounded := by
  refine perform_preserves (P := fun after _ => after.Bounded)
    (fun _ _ _ _ _ _ hb step => hb.readStep step) ?_ ?_ ?_ ?_ hc
  · intro c s hc
    exact ⟨Nat.lt_of_le_of_lt (Nat.le_add_right _ _) hc.pointer_lt, hc.limit_lt, hc.chunkSize_lt⟩
  · rintro target position rfl hbound
    exact ⟨bound_lt hop hbound, hc.limit_lt, hc.chunkSize_lt⟩
  · rintro target limit rfl hbound
    exact ⟨hc.pointer_lt, bound_lt hop hbound, hc.chunkSize_lt⟩
  · rintro n rfl
    exact ⟨hc.pointer_lt, hc.limit_lt, chunkSizeOf_lt hop⟩

/-- **So do runs.** -/
theorem performAll (source : Source σ) {ops : List Operation} (hops : ∀ op ∈ ops, op.InRange)
    (hc : c.Bounded) (s : σ) : (performAll source ops c s).2.1.Bounded := by
  induction ops generalizing c s with
  | nil => exact hc
  | cons op ops ih =>
    exact ih (fun o ho => hops o (List.mem_cons_of_mem op ho))
      (hc.perform (hops op List.mem_cons_self)) _

/-- The numbers of a channel just opened are in range. -/
theorem opened {object : ObjectId} {options : List ReadOption}
    (hc : Channel.opened object options = .ok fresh) : fresh.Bounded := by
  obtain ⟨-, -, hpointer, -, -, -, hsize, hlimit, -, -⟩ := isFresh_of_opened hc
  refine ⟨?_, ?_, ?_⟩
  · rw [hpointer]
    decide
  · rw [hlimit]
    decide
  · rw [hsize]
    decide

end Bounded

namespace Follows

/-- **A channel that takes up a read follows the same reader.** It does not
know of an end that the old one knew of with bytes still to serve; nobody was
told of that end either. -/
theorem resumed (hf : Follows h r c) : Follows h r c.resumed where
  isOpen := hf.isOpen
  pointer_eq := hf.pointer_eq
  limit_eq := hf.limit_eq
  unmodified := rfl
  etag := hf.etag
  unread := List.nil_prefix
  ended_of_said := by
    intro hs
    obtain ⟨he, hu⟩ := hf.ended_of_said hs
    refine ⟨?_, rfl⟩
    show (c.ended && c.unread.isEmpty) = true
    rw [he, hu]
    rfl
  said_of_ended := by
    intro hended
    obtain ⟨he, hu⟩ : c.ended = true ∧ c.unread.isEmpty = true :=
      (Bool.and_eq_true _ _).mp hended
    have hsaid := hf.said_of_ended he
    rw [List.isEmpty_iff.mp hu] at hsaid
    exact hsaid

/-- **Channels that follow one reader give the same**, and follow one reader
again. -/
theorem perform_eq {op : Operation} (hs : source.Serves h) (hs' : source'.Serves h)
    (hop : op.HidesChunks) (hf : Follows h r c) (hf' : Follows h r c') (s s' : σ) :
    (c.perform source op s).1 = (c'.perform source' op s').1
      ∧ ∃ r', Follows h r' (c.perform source op s).2.1
        ∧ Follows h r' (c'.perform source' op s').2.1 := by
  cases op with
  | read size =>
    obtain ⟨hres, hnext⟩ := hf.read hs size s
    obtain ⟨hres', hnext'⟩ := hf'.read hs' size s'
    refine ⟨?_, _, hnext, hnext'⟩
    show Outcome.ofResult .data (c.read source size s).1
      = .ofResult .data (c'.read source' size s').1
    rw [hres, hres']
  | seek target =>
    rw [perform_seek, perform_seek, seek_open source hf.isOpen, seek_open source' hf'.isOpen]
    cases bound .position target with
    | error fault => exact ⟨rfl, r, hf, hf'⟩
    | ok position => exact ⟨rfl, _, hf.movedTo position, hf'.movedTo position⟩
  | setLimit target =>
    rw [perform_setLimit, perform_setLimit]
    unfold Channel.setLimit
    cases bound .limit target with
    | error fault => exact ⟨rfl, r, hf, hf'⟩
    | ok limit => exact ⟨rfl, _, hf.setLimit limit, hf'.setLimit limit⟩
  | setChunkSize n => exact ⟨rfl, r, hf.setChunkSize n, hf'.setChunkSize n⟩
  | tell =>
    refine ⟨?_, r, hf, hf'⟩
    show Outcome.ofResult .offset c.tell = .ofResult .offset c'.tell
    rw [hf.tell_eq, hf'.tell_eq]
  | readInto capacity => exact hop.elim
  | readAndClose size => exact hop.elim
  | close => exact hop.elim

end Follows

/-- **A channel that can be handed over**: it follows a plain reader, and a
token has room for what it reads and for its numbers. -/
structure Transferable (h : Held) (fresh : Channel) (r : PlainReader) (c : Channel) : Prop where
  follows : Follows h r c
  bounded : c.Bounded
  target_eq : c.target = fresh.target

/-- **A channel that can be handed over is**, and what takes its place can be
handed over again. -/
theorem Transferable.handedOver [Nesting]
    (hc : Channel.opened fresh.object fresh.options = .ok fresh)
    (ht : Checkpoint.HoldsTarget fresh.object fresh.options)
    (htag : ∀ t, h.etag = some t → (Text.Utf8.encode t).length < sizeLimit)
    (hf : Transferable h fresh r c) :
    c.handedOver = .ok c.resumed ∧ Transferable h fresh r c.resumed := by
  have hobject : c.object = fresh.object := congrArg Prod.fst hf.target_eq
  have hoptions : c.options = fresh.options := congrArg (fun t => t.2.2) hf.target_eq
  rw [← hobject, ← hoptions] at hc ht
  -- the only tag that a channel can have got from the object is the object's
  have hlast : ∀ t, c.lastEtag = some t → (Text.Utf8.encode t).length < sizeLimit := by
    intro t htext
    refine htag t ?_
    rcases hf.follows.etag with hnone | hsame
    · rw [hnone] at htext
      cases htext
    · rw [← hsame, htext]
  obtain ⟨hpointer, hlimit, hsize⟩ := hf.bounded
  exact ⟨handedOver_eq hc hf.target_eq ht hf.bounded hlast, hf.follows.resumed,
    ⟨hpointer, hlimit, hsize⟩, hf.target_eq⟩

end Channel

/-! ## Runs with changing hands -/

/-- **One move of a read that may change hands**: an operation, or a channel
over another source in the place of the present one. -/
inductive Move (σ : Type) where
  | operate (op : Operation)
  | handOver (source : Source σ)

/-- A move over sources made of those that it is over. -/
def Move.over {σ τ : Type} (f : Source σ → Source τ) : Move σ → Move τ
  | .operate op => .operate op
  | .handOver source => .handOver (f source)

/-- **A move that an object allows**: an operation that chunks do not show in,
with numbers that a token can hold, or a source that serves the object. -/
def Move.Allowed {σ : Type} (h : Held) : Move σ → Prop
  | .operate op => op.HidesChunks ∧ op.InRange
  | .handOver source => source.Serves h

namespace Channel

variable {σ : Type} {source source' : Source σ} {c c' fresh : Channel} {h : Held} {r : PlainReader}

/-- **Performs moves one after the other**, and lists what comes of the
operations. A channel that cannot be handed over ends the run. -/
def performMoves [Nesting] (source : Source σ) : List (Move σ) → Channel → σ →
    Except Fault (List Outcome × Channel × σ)
  | [], c, s => .ok ([], c, s)
  | .operate op :: moves, c, s => do
    let (outcome, c, s) := c.perform source op s
    let (outcomes, c, s) ← performMoves source moves c s
    return (outcome :: outcomes, c, s)
  | .handOver source :: moves, c, s => do
    performMoves source moves (← c.handedOver) s

/-- A chain that goes on with an operation. -/
theorem performMoves_operate [Nesting] (source : Source σ) (op : Operation) (moves : List (Move σ))
    (c : Channel) (s : σ) :
    performMoves source (.operate op :: moves) c s
      = (performMoves source moves (c.perform source op s).2.1 (c.perform source op s).2.2
        >>= fun p => pure ((c.perform source op s).1 :: p.1, p.2)) :=
  rfl

/-- A chain that goes on with another channel. -/
theorem performMoves_handOver [Nesting] (source source' : Source σ) (moves : List (Move σ))
    (c : Channel) (s : σ) :
    performMoves source (.handOver source' :: moves) c s
      = (c.handedOver >>= fun c => performMoves source' moves c s) :=
  rfl

/-- **A chain gives the same over sources and over ones that hold more.** -/
theorem performMoves_seen [Nesting] {τ : Type} {f : Source σ → Source τ} {view : τ → σ}
    (hf : ∀ source : Source σ, source.Sees (f source) view) (source : Source σ)
    (moves : List (Move σ)) (c : Channel) (t : τ) :
    performMoves source moves c (view t)
      = (performMoves (f source) (moves.map (.over f)) c t).map (seen view) := by
  induction moves generalizing source c t with
  | nil => rfl
  | cons move moves ih =>
    cases move with
    | operate op =>
      rw [List.map_cons, Move.over, performMoves_operate, performMoves_operate,
        perform_seen (hf source)]
      dsimp only [seen]
      rw [ih]
      cases performMoves (f source) (moves.map (.over f)) (c.perform (f source) op t).2.1
        (c.perform (f source) op t).2.2 <;> rfl
    | handOver next =>
      rw [List.map_cons, Move.over, performMoves_handOver, performMoves_handOver]
      cases c.handedOver with
      | error fault => rfl
      | ok taken => exact ih next taken t

/-- The operations among moves. -/
def operations : List (Move σ) → List Operation
  | [] => []
  | .operate op :: moves => op :: operations moves
  | .handOver _ :: moves => operations moves

/-- **A run with changing hands gives what a run without gives.** The two runs
may be at different sources from the start. -/
theorem Transferable.performMoves [Nesting]
    (hc : Channel.opened fresh.object fresh.options = .ok fresh)
    (ht : Checkpoint.HoldsTarget fresh.object fresh.options)
    (htag : ∀ t, h.etag = some t → (Text.Utf8.encode t).length < sizeLimit)
    (hs : source.Serves h) (hs' : source'.Serves h) {moves : List (Move σ)}
    (hmoves : ∀ move ∈ moves, move.Allowed h) (hf : Follows h r c)
    (hf' : Transferable h fresh r c') (s s' : σ) :
    ∃ after t, Channel.performMoves source' moves c' s'
      = .ok ((performAll source (operations moves) c s).1, after, t) := by
  induction moves generalizing source' r c c' s s' with
  | nil => exact ⟨c', s', rfl⟩
  | cons move moves ih =>
    have hmove := hmoves move List.mem_cons_self
    have hrest := fun m hm => hmoves m (List.mem_cons_of_mem move hm)
    cases move with
    | operate op =>
      obtain ⟨hop, hrange⟩ := hmove
      obtain ⟨hsame, r₁, hf₁, hf₁'⟩ := hf.perform_eq hs hs' hop hf'.follows s s'
      have hnext : Transferable h fresh r₁ (c'.perform source' op s').2.1 :=
        ⟨hf₁', hf'.bounded.perform hrange, (target_perform source' op c' s').trans hf'.target_eq⟩
      obtain ⟨after, t, hrun⟩ := ih hs' hrest hf₁ hnext (c.perform source op s).2.2
        (c'.perform source' op s').2.2
      refine ⟨after, t, ?_⟩
      show (Channel.performMoves source' moves (c'.perform source' op s').2.1
        (c'.perform source' op s').2.2 >>= fun p =>
          pure ((c'.perform source' op s').1 :: p.1, p.2)) = _
      rw [hrun, ← hsame]
      rfl
    | handOver source₁ =>
      -- only one of the two runs changes; the reader they follow stays
      obtain ⟨hover, hnext⟩ := hf'.handedOver hc ht htag
      obtain ⟨after, t, hrun⟩ := ih hmove hrest hf hnext s s'
      refine ⟨after, t, ?_⟩
      show (c'.handedOver >>= fun c => Channel.performMoves source₁ moves c s') = _
      rw [hover]
      exact hrun

/-- A channel just opened can be handed over. -/
theorem transferable_opened {object : ObjectId} {options : List ReadOption}
    (hc : Channel.opened object options = .ok fresh) : Transferable h fresh .start fresh :=
  ⟨follows_opened hc, .opened hc, rfl⟩

/-- A channel that can be handed over still can after operations. -/
theorem Transferable.performAll (hs : source.Serves h) {ops : List Operation}
    (hops : ∀ op ∈ ops, (op.HidesChunks ∨ ∃ capacity, op = .readInto capacity) ∧ op.InRange)
    (hf : Transferable h fresh r c) (s : σ) :
    ∃ r', Transferable h fresh r' (performAll source ops c s).2.1 := by
  induction ops generalizing r c s with
  | nil => exact ⟨r, hf⟩
  | cons op ops ih =>
    obtain ⟨hop, hrange⟩ := hops op List.mem_cons_self
    obtain ⟨r₁, hf₁⟩ : ∃ r₁, Follows h r₁ (c.perform source op s).2.1 := by
      rcases hop with hhides | ⟨capacity, rfl⟩
      · obtain ⟨-, r₁, hf₁, -⟩ := hf.follows.perform_eq hs hs hhides hf.follows s s
        exact ⟨r₁, hf₁⟩
      · have hplain : (Operation.readInto capacity).IsPlain := trivial
        obtain ⟨r₁, -, hf₁⟩ := hf.follows.perform hs hplain s
        exact ⟨r₁, hf₁⟩
    exact ih (fun o ho => hops o (List.mem_cons_of_mem op ho))
      ⟨hf₁, hf.bounded.perform hrange, (target_perform source op c s).trans hf.target_eq⟩ _

end Channel

/-! ## The theorem -/

/-- **Handing over is invisible.** Take a channel over a source that serves an
object, after any use, and go on with it by operations whose results do not
depend on chunks. However often it is handed over in between, to sources that
serve the object too, it always can be, and every operation gives what it
gives on the one channel. -/
theorem hand_over_invisible [Nesting] {σ : Type} {source : Source σ} {h : Held}
    (hs : source.Serves h)
    (htag : ∀ t, h.etag = some t → (Text.Utf8.encode t).length < sizeLimit)
    {object : ObjectId} {options : List ReadOption}
    (ht : Checkpoint.HoldsTarget object options) {fresh : Channel}
    (hc : Channel.opened object options = .ok fresh) (use : List Operation)
    (huse : ∀ op ∈ use, (op.HidesChunks ∨ ∃ capacity, op = .readInto capacity) ∧ op.InRange)
    {start s : σ} {c : Channel} (hused : (Channel.performAll source use fresh start).2 = (c, s))
    (moves : List (Move σ)) (hmoves : ∀ move ∈ moves, move.Allowed h) :
    ∃ after t, Channel.performMoves source moves c s
      = .ok ((Channel.performAll source (Channel.operations moves) c s).1, after, t) := by
  obtain ⟨r, hf⟩ := (Channel.transferable_opened (h := h) hc).performAll hs huse start
  obtain ⟨hobject, hoptions⟩ := Channel.isFresh_of_opened hc
  rw [← hobject, ← hoptions] at hc ht
  rw [hused] at hf
  exact hf.performMoves hc ht htag hs hs hmoves hf.follows s s

/-- A use that leaves a channel in the middle of a chunk. -/
def sampleStart : List Operation := [.setChunkSize 4, .readInto 1]

/-- Moves that hand over with bytes unread, with the limit among them, after a
refused operation, and at the end. -/
def sampleMoves : List (Move Unit) :=
  [.operate (.read 1), .handOver sampleHeld.source, .operate (.read 3),
    .operate (.setLimit (.int 6)), .handOver sampleHeld.source, .operate (.read 9),
    .handOver sampleHeld.source, .operate (.seek (.int (-1))), .operate .tell,
    .handOver sampleHeld.source, .operate (.setLimit (.int 9)), .operate (.read (-1))]

theorem hand_over_invisible_sample :
    ∃ fresh, Channel.opened sampleId [] = .ok fresh
      ∧ ∃ c after, (Channel.performAll (sampleHeld.source : Source Unit) sampleStart fresh ()).2
          = (c, ())
        ∧ Channel.performMoves sampleHeld.source sampleMoves c ()
          = .ok ((Channel.performAll sampleHeld.source (Channel.operations sampleMoves) c ()).1,
            after, ()) := by
  have htarget : Checkpoint.HoldsTarget sampleId [] :=
    ⟨by decide, by decide, Or.inl rfl, by decide, nofun⟩
  have huse : ∀ op ∈ sampleStart,
      (op.HidesChunks ∨ ∃ capacity, op = .readInto capacity) ∧ op.InRange := by
    simp [sampleStart, Operation.HidesChunks, Operation.InRange, IsWord]
  have hmoves : ∀ move ∈ sampleMoves, move.Allowed sampleHeld := by
    simp [sampleMoves, Move.Allowed, Operation.HidesChunks, Operation.InRange, IsWord, Held.serves]
  obtain ⟨fresh, hfresh⟩ : ∃ fresh, Channel.opened sampleId [] = .ok fresh := ⟨_, rfl⟩
  obtain ⟨after, _, hrun⟩ := hand_over_invisible sampleHeld.serves (by decide) htarget hfresh
    sampleStart huse
    (rfl : (Channel.performAll (sampleHeld.source : Source Unit) sampleStart fresh ()).2 = (_, ()))
    sampleMoves hmoves
  exact ⟨fresh, hfresh, _, after, rfl, hrun⟩

end RangeReader

import RangeReader.Proofs.EndOfStream
import RangeReader.Proofs.TokenRoom

/-!
# The end is final

Once a read has said that the stream is at its end, nothing but a move and
closing changes that. The channel has nothing left to serve and has ended, and
no other operation looks further: a read says so again, and the limit and the
size of chunks are not asked for (`AtEnd.perform`). It makes no difference how
the end was reached, nor that the limit is raised later.

A checkpoint of such a channel is at the end, as there is nothing unread, so what
is restored from it is at the end too, at the same place. A chain of channels
therefore stays there, whatever the sources are that the channels are over: none
of them is asked for anything, or told anything (`AtEnd.performMoves`). That a
chain goes through at all is another matter. Each channel of it must fit into a
token, and it does if the first one does and the numbers are in range
(`Sendable`).
-/

namespace RangeReader

namespace Operation

/-- **The operations that stay at the end**: all that neither move nor close. -/
def Stays : Operation → Prop
  | .readInto _ | .read _ | .setLimit _ | .setChunkSize _ | .tell => True
  | _ => False

/-- **What comes of an operation at the end**, with the next byte at `place`. -/
def outcomeAtEnd (place : Nat) : Operation → Outcome
  | .readInto _ => .delivered .ended
  | .read _ => .data []
  | .setLimit target => .ofResult (fun _ => .done) (Channel.bound .limit target)
  | .tell => .offset place
  | _ => .done

end Operation

namespace Move

variable {σ : Type}

/-- A move that stays at the end. -/
def Stays : Move σ → Prop
  | .operate op => op.Stays
  | .handOver _ => True

/-- A move with numbers that a token can hold. -/
def InRange : Move σ → Prop
  | .operate op => op.InRange
  | .handOver _ => True

/-- Whether a move stays at the end does not depend on the sources. -/
theorem stays_over {τ : Type} {f : Source σ → Source τ} {moves : List (Move σ)}
    (h : ∀ move ∈ moves, move.Stays) : ∀ move ∈ moves.map (Move.over f), move.Stays := by
  intro move hmem
  obtain ⟨inner, hinner, rfl⟩ := List.mem_map.mp hmem
  cases inner with
  | operate op => exact h _ hinner
  | handOver next => trivial

end Move

namespace Channel

variable {σ : Type} {source : Source σ} {c c' after : Channel} {s s' : σ}

/-! ## At the end -/

namespace AtEnd

/-- Reading at the end gives no bytes. -/
theorem read (h : c.AtEnd) (source : Source σ) (size : Int) (s : σ) :
    c.read source size s = (.ok [], c, s) := by
  unfold Channel.read
  rw [if_neg (by rw [h.isOpen]; decide)]
  split
  · exact drain_of_ended (h.readInto source _ s)
  · by_cases hsize : 0 < size.toNat
    · exact fill_of_ended hsize (h.readInto source _ s)
    · exact fill_of_none hsize

/-- **An operation at the end**: its outcome is decided, the source has no part
in it, and the channel is still at the end, at the same place. -/
theorem perform (h : c.AtEnd) {op : Operation} (hop : op.Stays) (source : Source σ) (s : σ) :
    ∃ after, c.perform source op s = (op.outcomeAtEnd c.pointer, after, s)
      ∧ after.AtEnd ∧ after.pointer = c.pointer ∧ after.lastEtag = c.lastEtag := by
  cases op with
  | readInto capacity =>
    refine ⟨c, ?_, h, rfl, rfl⟩
    rw [perform_readInto, h.readInto]
    rfl
  | read size =>
    refine ⟨c, ?_, h, rfl, rfl⟩
    show (Outcome.ofResult .data (c.read source size s).1, (c.read source size s).2) = _
    rw [h.read]
    rfl
  | setLimit target =>
    rw [perform_setLimit, show (Operation.setLimit target).outcomeAtEnd c.pointer
      = .ofResult (fun _ => .done) (bound .limit target) from rfl]
    unfold Channel.setLimit
    cases bound .limit target with
    | error fault => exact ⟨c, rfl, h, rfl, rfl⟩
    | ok limit => exact ⟨{ c with limit := limit }, rfl, ⟨h.isOpen, h.ended, h.unread_eq⟩, rfl, rfl⟩
  | setChunkSize n => exact ⟨c.setChunkSize n, rfl, ⟨h.isOpen, h.ended, h.unread_eq⟩, rfl, rfl⟩
  | tell =>
    refine ⟨c, ?_, h, rfl, rfl⟩
    show (Outcome.ofResult .offset c.tell, c, s) = _
    rw [tell_open h.isOpen]
    rfl
  | seek target => exact hop.elim
  | readAndClose size => exact hop.elim
  | close => exact hop.elim

/-- **What takes up a read that is at its end** is at the end too. -/
theorem takesUp (h : c.AtEnd) (hover : c.TakesUp c') : c'.AtEnd where
  isOpen := hover.isOpen_eq.trans h.isOpen
  ended := by
    rw [hover.ended_eq, h.ended, h.unread_eq]
    rfl
  unread_eq := hover.unread_eq

/-- **A chain from the end on**, where it goes through: the outcomes are decided,
no source has a part in it, and it ends where it started. -/
theorem performMoves [Nesting] (h : c.AtEnd) {moves : List (Move σ)}
    (hmoves : ∀ move ∈ moves, move.Stays)
    {outcomes : List Outcome}
    (hrun : Channel.performMoves source moves c s = .ok (outcomes, c', s')) :
    outcomes = (operations moves).map (Operation.outcomeAtEnd c.pointer)
      ∧ c'.AtEnd ∧ c'.pointer = c.pointer ∧ s' = s := by
  induction moves generalizing source c outcomes with
  | nil =>
    cases hrun
    exact ⟨rfl, h, rfl, rfl⟩
  | cons move moves ih =>
    have hmove := hmoves move List.mem_cons_self
    have hrest := fun m hm => hmoves m (List.mem_cons_of_mem move hm)
    cases move with
    | operate op =>
      obtain ⟨next, hnext, hend, hpointer, -⟩ := h.perform hmove source s
      rw [performMoves_operate, hnext] at hrun
      obtain ⟨⟨later, last, t⟩, hlater, hrun⟩ := eq_ok_of_bind hrun
      cases hrun
      obtain ⟨houtcomes, hlast, hplace, hstate⟩ := ih hend hrest hlater
      rw [hpointer] at houtcomes hplace
      exact ⟨congrArg _ houtcomes, hlast, hplace, hstate⟩
    | handOver next =>
      rw [performMoves_handOver] at hrun
      obtain ⟨taken, hover, hrun⟩ := eq_ok_of_bind hrun
      have htaken := takesUp_of_handedOver hover
      obtain ⟨houtcomes, hlast, hplace, hstate⟩ := ih (h.takesUp htaken) hrest hrun
      rw [htaken.pointer_eq] at houtcomes hplace
      exact ⟨houtcomes, hlast, hplace, hstate⟩

end AtEnd

/-! ## Channels that can be sent -/

/-- **A channel that can be sent**: it describes its object, and there is room
for it in a token. -/
structure Sendable [Nesting] (c : Channel) : Prop where
  describes : c.Describes
  room : c.HasRoom
  options_length : c.options.length < sizeLimit
  options : ∀ o ∈ c.options, o.value.Portable (Checkpoint.nestingLimit - 3)

namespace Sendable

/-- What a channel reads, its numbers and its tag decide about that. -/
theorem of_target [Nesting] (h : c.Sendable) (htarget : c'.target = c.target)
    (hbounded : c'.Bounded)
    (htag : c'.lastEtag = c.lastEtag) : c'.Sendable := by
  have hobject : c'.object = c.object := congrArg Prod.fst htarget
  have hoptions : c'.options = c.options := congrArg (fun t => t.2.2) htarget
  have hroom : c'.HasRoom := by
    refine ⟨?_, ?_, ?_, hbounded, ?_⟩
    · rw [hobject]
      exact h.room.bucket
    · rw [hobject]
      exact h.room.name
    · rw [hobject]
      exact h.room.generation
    · rw [htag]
      exact h.room.lastEtag
  refine ⟨h.describes.of_target htarget, hroom, ?_, ?_⟩
  · rw [hoptions]
    exact h.options_length
  · rw [hoptions]
    exact h.options

/-- **It is sent**, and what takes its place can be sent again. -/
theorem handedOver [Nesting] (h : c.Sendable) :
    c.handedOver = .ok c.resumed ∧ c.resumed.Sendable := by
  obtain ⟨fresh, hopened, hfresh⟩ := h.describes
  have htarget : Checkpoint.HoldsTarget c.object c.options :=
    ⟨h.room.bucket, h.room.name, h.room.generation, h.options_length, h.options⟩
  obtain ⟨hpointer, hlimit, hsize⟩ := h.room.bounded
  exact ⟨handedOver_eq hopened hfresh htarget h.room.bounded h.room.lastEtag,
    h.of_target rfl ⟨hpointer, hlimit, hsize⟩ rfl⟩

end Sendable

/-- **A chain from the end on goes through** if its channels can be sent where it
sends them. -/
theorem AtEnd.performMoves_ok [Nesting] (h : c.AtEnd) {moves : List (Move σ)}
    (hmoves : ∀ move ∈ moves, move.Stays)
    (hsent : (∃ next, .handOver next ∈ moves) → c.Sendable ∧ ∀ move ∈ moves, move.InRange)
    (source : Source σ) (s : σ) :
    ∃ result, Channel.performMoves source moves c s = .ok result := by
  induction moves generalizing source c with
  | nil => exact ⟨_, rfl⟩
  | cons move moves ih =>
    have hmove := hmoves move List.mem_cons_self
    have hrest := fun m hm => hmoves m (List.mem_cons_of_mem move hm)
    cases move with
    | operate op =>
      obtain ⟨next, hnext, hend, -, htag⟩ := h.perform hmove source s
      have hkept := target_perform source op c s
      rw [hnext] at hkept
      have hsent' : (∃ next, .handOver next ∈ moves) →
          next.Sendable ∧ ∀ move ∈ moves, move.InRange := by
        rintro ⟨other, hmem⟩
        obtain ⟨hsendable, hrange⟩ := hsent ⟨other, List.mem_cons_of_mem _ hmem⟩
        have hop : op.InRange := hrange (.operate op) List.mem_cons_self
        have hbounded : (c.perform source op s).2.1.Bounded :=
          hsendable.room.bounded.perform hop
        rw [hnext] at hbounded
        exact ⟨hsendable.of_target hkept hbounded htag,
          fun m hm => hrange m (List.mem_cons_of_mem _ hm)⟩
      obtain ⟨result, hrun⟩ := ih hend hrest hsent' source
      refine ⟨(op.outcomeAtEnd c.pointer :: result.1, result.2), ?_⟩
      rw [performMoves_operate, hnext]
      show (Channel.performMoves source moves next s >>= _) = _
      rw [hrun]
      rfl
    | handOver other =>
      obtain ⟨hsendable, hrange⟩ := hsent ⟨other, List.mem_cons_self⟩
      obtain ⟨hover, hnext⟩ := hsendable.handedOver
      obtain ⟨result, hrun⟩ := ih (h.takesUp (takesUp_of_handedOver hover)) hrest
        (fun _ => ⟨hnext, fun m hm => hrange m (List.mem_cons_of_mem _ hm)⟩) other
      refine ⟨result, ?_⟩
      rw [performMoves_handOver, hover]
      exact hrun

end Channel

/-! ## The theorem -/

/-- **The end of a stream is final.** Take any channel, opened or restored, over
any source, after any operations, and let a read say that the stream is at its
end. Then go on by reads, changes of the limit and of the size of chunks, and
`tell`, and put a channel over any other source in its place at any time.

* Wherever that goes through, a read into room for bytes says that the stream is
  at its end, reading bytes gives none, and `tell` gives what it gave when the end
  was reached. No source of the chain is asked for anything: its log is as it was,
  and so is the state of all the sources together.
* It goes through where no channel is put in the place of another, or else if
  there is room for the channel in a token and the numbers are in range. -/
theorem end_is_final [Nesting] {σ : Type} (source : Source σ) {start : Channel}
    (hstart : start.Made) (ops : List Operation) (s : σ) {before : List Outcome} {c : Channel}
    {t : σ}
    (hrun : Channel.performAll source ops start s = (before, c, t)) {capacity : Nat}
    {after : Channel} {u : σ} (hended : c.readInto source capacity t = (.ended, after, u))
    {moves : List (Move σ)} (hmoves : ∀ move ∈ moves, move.Stays) (log : List LogEntry) :
    after.tell = .ok c.pointer
      ∧ (∀ outcomes last v, Channel.performMoves source.logged (moves.map (.over .logged)) after
            (u, log) = .ok (outcomes, last, v) →
          Channel.performMoves source moves after u = .ok (outcomes, last, u)
            ∧ outcomes = (Channel.operations moves).map (Operation.outcomeAtEnd c.pointer)
            ∧ last.tell = after.tell ∧ v = (u, log))
      ∧ (((∃ next, .handOver next ∈ moves) → after.HasRoom ∧ after.options.length < sizeLimit
            ∧ (∀ o ∈ after.options, o.value.Portable (Checkpoint.nestingLimit - 3))
            ∧ ∀ move ∈ moves, move.InRange) →
          ∃ result, Channel.performMoves source.logged (moves.map (.over .logged)) after (u, log)
            = .ok result) := by
  have step := Channel.ReadStep.of_eq hended
  have hend := step.at_end
  have hpointer : after.pointer = c.pointer := Channel.pointer_readStep step
  refine ⟨?_, ?_, fun hroom => ?_⟩
  · rw [Channel.tell_open hend.isOpen, hpointer]
  · intro outcomes last v hmore
    have hplain := Channel.performMoves_seen Source.sees_logged source moves after (u, log)
    rw [hmore] at hplain
    obtain ⟨-, -, -, rfl⟩ := hend.performMoves (Move.stays_over hmoves) hmore
    obtain ⟨houtcomes, hlast, hplace, -⟩ := hend.performMoves hmoves hplain
    rw [hpointer] at houtcomes
    refine ⟨hplain, houtcomes, ?_, rfl⟩
    rw [Channel.tell_open hlast.isOpen, Channel.tell_open hend.isOpen, hplace]
  · have hreached : c.target = start.target := by
      have hkept := Channel.target_performAll source ops start s
      rw [hrun] at hkept
      exact hkept
    have hdescribes : after.Describes :=
      hstart.describes.of_target ((Channel.target_readStep step).trans hreached)
    have hsent : (∃ next, .handOver next ∈ moves) →
        after.Sendable ∧ ∀ move ∈ moves, move.InRange := by
      intro hover
      obtain ⟨hfits, hlength, hoptions, hrange⟩ := hroom hover
      exact ⟨⟨hdescribes, hfits, hlength, hoptions⟩, hrange⟩
    obtain ⟨result, hplain⟩ := hend.performMoves_ok hmoves hsent source u
    have hseen := Channel.performMoves_seen Source.sees_logged source moves after (u, log)
    rw [hplain] at hseen
    cases hlogged : Channel.performMoves source.logged (moves.map (.over .logged)) after
        (u, log) with
    | error fault =>
      rw [hlogged] at hseen
      cases hseen
    | ok result => exact ⟨result, rfl⟩

/-- A use that leaves a channel at its limit. -/
def sampleLimited : List Operation := [.setLimit (.int 3), .readInto 3]

/-- Moves that raise the limit, and go on over a source that has bytes for every
request. -/
def sampleAfterEnd : List (Move Unit) :=
  [.operate (.setLimit (.int 9)), .operate (.readInto 0), .handOver Source.overfull,
    .operate (.setChunkSize 2), .operate (.read (-1)), .operate .tell]

theorem end_is_final_sample :
    ∃ start before c after last, start.Made
      ∧ Channel.performAll (sampleHeld.source : Source Unit) sampleLimited start ()
        = (before, c, ())
      ∧ c.readInto (sampleHeld.source : Source Unit) 1 () = (.ended, after, ())
      ∧ Channel.performMoves sampleHeld.source sampleAfterEnd after ()
        = .ok ([.done, .delivered .ended, .done, .data [], .offset 3], last, ())
      ∧ last.tell = .ok 3 := by
  obtain ⟨start, before, c, after, hstart, hrun, hended, hplace, hobject, hoptions, hbounded,
      htag⟩ :
      ∃ start before c after, Channel.opened sampleId [] = .ok start
        ∧ Channel.performAll (sampleHeld.source : Source Unit) sampleLimited start ()
          = (before, c, ())
        ∧ c.readInto (sampleHeld.source : Source Unit) 1 () = (.ended, after, ())
        ∧ c.pointer = 3 ∧ after.object = sampleId ∧ after.options = [] ∧ after.Bounded
        ∧ after.lastEtag = some "v1" :=
    ⟨_, _, _, _, rfl, rfl, rfl, rfl, rfl, rfl, ⟨by decide, by decide, by decide⟩, rfl⟩
  have hroom : after.HasRoom := by
    refine ⟨?_, ?_, ?_, hbounded, ?_⟩
    · rw [hobject]
      decide
    · rw [hobject]
      decide
    · rw [hobject]
      exact .inl rfl
    · rw [htag]
      rintro tag ⟨⟩
      decide
  have hstays : ∀ move ∈ sampleAfterEnd, move.Stays := by
    simp [sampleAfterEnd, Move.Stays, Operation.Stays]
  have hrange : ∀ move ∈ sampleAfterEnd, move.InRange := by
    simp [sampleAfterEnd, Move.InRange, Operation.InRange, IsWord]
  obtain ⟨htell, hfinal, hthrough⟩ := end_is_final sampleHeld.source (.opened hstart) sampleLimited
    () hrun hended hstays []
  rw [hplace] at htell hfinal
  obtain ⟨⟨outcomes, last, v⟩, hmore⟩ := hthrough fun _ =>
    ⟨hroom, by rw [hoptions]; decide, by rw [hoptions]; exact List.forall_mem_nil _, hrange⟩
  obtain ⟨hplain, houtcomes, hlast, -⟩ := hfinal outcomes last v hmore
  rw [houtcomes] at hplain
  exact ⟨start, before, c, after, last, .opened hstart, hrun, hended, hplain, hlast.trans htell⟩

end RangeReader

import RangeReader.Proofs.FetchLog

/-!
# What closing gives up

A checkpoint has the offset of the first byte that was not served, and it is at
the end only where no such byte is left. Both are read off the chunk: the offset
is that of the chunk and as many bytes more as were served of it. Closing drops
the chunk with the number of bytes served, and leaves the rest as it is. So a
checkpoint taken after closing starts where the chunk did, and it is at the end
where the answer that the chunk came from was the last one, read or not.

Which chunk it is follows from the log: bytes that are unread are the rest of
the answer to the last request (`LeftOver`), of which at least one byte was
served. So closing moves the checkpoint of every channel with unread bytes, and
of no other (`closing_gives_up_chunk`). A limit lowered into what was served
drops the chunk as well, and there the offset is carried over, as in every read
(`pointer_readStep`).
-/

namespace RangeReader

namespace Channel

variable {σ : Type} {source : Source σ} {capacity : Nat} {c after : Channel}
variable {t t' : σ × List LogEntry}

/-! ## Unread bytes -/

/-- Serving a part of a chunk counts the bytes, and does nothing else. -/
theorem passed_of_ne {n : Nat} (h : c.unread.drop n ≠ []) :
    c.passed n = { c with served := c.served + n, unread := c.unread.drop n } := by
  unfold passed
  split
  · rename_i hnil
    exact absurd hnil h
  · rename_i hrest
    rw [hrest]

theorem served_passed {n : Nat} (h : c.unread.drop n ≠ []) :
    (c.passed n).served = c.served + n := by
  rw [passed_of_ne h]

/-- **What is left of an answer**: the chunk starts where the request did, and
what was not served of the answer is unread. The channel has ended if the answer
came short. -/
structure LeftOver (c : Channel) (request : RangeRequest) (answer : Fetched) : Prop where
  position_eq : c.position = request.offset
  unread_eq : c.unread = (answer.data.take request.length).drop c.served
  ended_eq : c.ended = decide ((answer.data.take request.length).length < request.length)

namespace LeftOver

variable {request : RangeRequest} {answer : Fetched}

/-- The whole answer is left of an answer just taken. -/
theorem withChunk (c : Channel) (length : Nat) (answer : Fetched) :
    (c.withChunk length answer.etag (answer.data.take length)).LeftOver (c.request length) answer :=
  ⟨rfl, rfl, rfl⟩

/-- Less is left after serving more. -/
theorem passed (h : c.LeftOver request answer) {n : Nat} (hn : c.unread.drop n ≠ []) :
    (c.passed n).LeftOver request answer := by
  rw [passed_of_ne hn]
  refine ⟨h.position_eq, ?_, h.ended_eq⟩
  rw [h.unread_eq, List.drop_drop]

/-- The pointer is before the end of what there is to serve. -/
theorem pointer_lt (h : c.LeftOver request answer) (hu : c.unread ≠ []) :
    c.pointer < request.offset + (answer.data.take request.length).length := by
  have hlength := congrArg List.length h.unread_eq
  rw [List.length_drop] at hlength
  have hunread := List.length_pos_iff.mpr hu
  have hposition := h.position_eq
  unfold pointer
  omega

end LeftOver

/-- **Unread bytes are what is left of the answer to the last request**, of
which some were served. -/
def FromLast (c : Channel) (t : σ × List LogEntry) : Prop :=
  c.unread ≠ [] → ∃ request answer earlier,
    t.2 = .fetch request (.ok answer) :: earlier ∧ 0 < c.served ∧ c.LeftOver request answer

namespace FromLast

/-- Without unread bytes there is nothing to say. -/
theorem of_nil (hu : c.unread = []) : c.FromLast t := fun hne => absurd hu hne

theorem readStep {d : Delivery} (h : c.FromLast t)
    (step : ReadStep source.logged capacity c t d after t') : after.FromLast t' := by
  cases step with
  | served _ hu _ =>
    intro hne
    rw [unread_passed] at hne
    obtain ⟨request, answer, earlier, hlog, hpos, hleft⟩ := h hu
    refine ⟨request, answer, earlier, hlog, ?_, hleft.passed hne⟩
    rw [served_passed hne]
    exact Nat.add_pos_left hpos _
  | fetched answer _ filled hf ha _ _ hfilled =>
    intro hne
    rw [unread_passed] at hne
    -- there is room for a byte, and the limit is not reached
    have hpos : 0 < filled.allowance capacity := by
      have hlimit : 0 < filled.limit - filled.pointer := by
        rw [hfilled]
        exact Nat.sub_pos_of_lt hf.pointer_lt
      exact Nat.lt_min.mpr ⟨hf.capacity_pos, hlimit⟩
    have hleft : filled.LeftOver (c.request (c.wanted capacity)) answer := by
      rw [hfilled]
      exact .withChunk c _ answer
    refine ⟨_, answer, t.2, log_of_answered ha, ?_, hleft.passed hne⟩
    rw [served_passed hne]
    exact Nat.add_pos_right _ hpos
  | unanswered _ _ hf => exact of_nil hf.unread_eq
  | refused _ _ hf => exact of_nil hf.unread_eq
  | bounded _ hu => exact of_nil hu
  | cutOff => exact of_nil rfl
  | nothing => exact of_nil rfl
  | _ => exact h

/-- Neither the limit nor the size of chunks has a part in it. -/
theorem of_eq (h : c.FromLast t) (hposition : after.position = c.position)
    (hserved : after.served = c.served) (hunread : after.unread = c.unread)
    (hended : after.ended = c.ended) : after.FromLast t := by
  intro hne
  rw [hunread] at hne
  obtain ⟨request, answer, earlier, hlog, hpos, hleft⟩ := h hne
  refine ⟨request, answer, earlier, hlog, hserved.symm ▸ hpos, ?_, ?_, ?_⟩
  · exact hposition.trans hleft.position_eq
  · rw [hunread, hserved]
    exact hleft.unread_eq
  · exact hended.trans hleft.ended_eq

/-- **Every operation leaves it so.** -/
theorem perform (h : c.FromLast t) (op : Operation) :
    (c.perform source.logged op t).2.1.FromLast (c.perform source.logged op t).2.2 :=
  perform_preserves (P := FromLast) (fun _ _ _ _ _ _ h step => h.readStep step)
    (fun _ _ _ => of_nil rfl) (fun _ _ _ _ => of_nil rfl)
    (fun _ _ _ _ => h.of_eq rfl rfl rfl rfl) (fun _ _ => h.of_eq rfl rfl rfl rfl) h

/-- **So does every run.** -/
theorem performAll (h : c.FromLast t) (ops : List Operation) :
    (performAll source.logged ops c t).2.1.FromLast (performAll source.logged ops c t).2.2 :=
  performAll_preserves (P := FromLast) (fun op _ _ h => h.perform op) ops h

end FromLast

/-! ## Checkpoints of a closed channel -/

/-- **The checkpoint after closing**: it is where the chunk starts, and it is at
the end if the channel had ended. -/
theorem capture_close (ho : c.isOpen = true) :
    Checkpoint.capture c.close
      = { Checkpoint.capture c with
        position := .int c.position
        isOpen := .bool false
        ended := .bool c.ended } := by
  unfold close
  rw [if_pos ho]
  unfold Checkpoint.capture
  rw [show ({ c.dropChunk with isOpen := false } : Channel).ended = c.ended from rfl,
    show ({ c.dropChunk with isOpen := false } : Channel).unread.isEmpty = true from rfl,
    Bool.and_true]
  rfl

/-- **Closing leaves the checkpoint of a channel where nothing of a chunk was
served**, and only there. -/
theorem capture_close_eq_iff (ho : c.isOpen = true) (hs : c.unread = [] ↔ c.served = 0) :
    Checkpoint.capture c.close = { Checkpoint.capture c with isOpen := .bool false }
      ↔ c.unread = [] := by
  rw [capture_close ho]
  constructor
  · intro hsame
    have hposition : Value.int c.position = Value.int c.pointer :=
      congrArg Checkpoint.position hsame
    injection hposition with hint
    rw [hs]
    have := Int.ofNat.inj hint
    unfold pointer at this
    omega
  · intro hu
    have hpointer : c.pointer = c.position := by
      unfold pointer
      rw [hs.mp hu, Nat.add_zero]
    unfold Checkpoint.capture
    rw [hu, hpointer, List.isEmpty_nil, Bool.and_true]

end Channel

/-! ## The theorem -/

/-- **Closing gives up the chunk.** Take any channel, opened or restored, over
any source, after any operations, and let it be open.

* Closing leaves the checkpoint as it is but for the word that the channel is
  closed, if and only if no bytes of a chunk are unread.
* Where some are, the chunk is what came of the last request, and some of it was
  served. Then the checkpoint after closing is that before with three changes: it
  is closed, its position is back at the offset of that request, and it is at the
  end if the answer came short. Before, it was not at the end, and its position
  was after that offset, and before the end of the bytes that came. -/
theorem closing_gives_up_chunk {σ : Type} (source : Source σ) {c : Channel} (hc : c.Made)
    (ops : List Operation) (s : σ) {outcomes : List Outcome} {now : Channel} {t : σ}
    {log : List LogEntry}
    (hrun : Channel.performAll source.logged ops c (s, []) = (outcomes, now, t, log))
    (ho : now.isOpen = true) :
    Channel.performAll source ops c s = (outcomes, now, t)
      ∧ (Checkpoint.capture now.close = { Checkpoint.capture now with isOpen := .bool false }
        ↔ now.unread = [])
      ∧ (now.unread ≠ [] → ∃ request answer earlier,
        log = .fetch request (.ok answer) :: earlier
          ∧ Checkpoint.capture now.close
            = { Checkpoint.capture now with
              position := .int request.offset
              isOpen := .bool false
              ended := .bool (decide (answer.data.length < request.length)) }
          ∧ (Checkpoint.capture now).ended = .bool false
          ∧ request.offset < now.pointer
          ∧ now.pointer < request.offset + min request.length answer.data.length) := by
  have hstart : c.FromLast (s, []) := .of_nil hc.unread_eq.1
  have hfrom : (Channel.performAll source.logged ops c (s, [])).2.1.FromLast
      (Channel.performAll source.logged ops c (s, [])).2.2 := hstart.performAll ops
  have hcoherent : (Channel.performAll source.logged ops c (s, [])).2.1.Coherent :=
    Channel.performAll_preserves (P := fun after _ => after.Coherent)
      (fun op _ _ h => h.perform op) ops (.of_made hc)
  rw [hrun] at hfrom hcoherent
  have hserved : now.unread = [] ↔ now.served = 0 := by
    refine ⟨hcoherent.served_eq, fun hzero => Classical.byContradiction fun hu => ?_⟩
    obtain ⟨-, -, -, -, hpos, -⟩ := hfrom hu
    exact absurd hzero (Nat.pos_iff_ne_zero.mp hpos)
  refine ⟨?_, Channel.capture_close_eq_iff ho hserved, fun hu => ?_⟩
  · have hplain := Channel.performAll_seen source.sees_logged ops c (s, [])
    rw [hrun] at hplain
    exact hplain
  · obtain ⟨request, answer, earlier, hlog, hpos, hleft⟩ := hfrom hu
    have hlt := hleft.pointer_lt hu
    have hended := hleft.ended_eq
    have hshort : (answer.data.take request.length).length < request.length
        ↔ answer.data.length < request.length := by
      rw [List.length_take]
      omega
    rw [decide_eq_decide.mpr hshort] at hended
    rw [List.length_take] at hlt
    refine ⟨request, answer, earlier, hlog, ?_, ?_, ?_, hlt⟩
    · rw [Channel.capture_close ho, hleft.position_eq, hended]
    · show Value.bool (now.ended && now.unread.isEmpty) = _
      rw [List.isEmpty_eq_false_iff.mpr hu, Bool.and_false]
    · rw [← hleft.position_eq]
      exact Nat.lt_add_of_pos_right hpos

theorem closing_gives_up_chunk_sample :
    ∃ c outcomes now request answer earlier, c.Made
      ∧ Channel.performAll Source.overfull.logged [.readInto 3] c ((), [])
        = (outcomes, now, (), .fetch request (.ok answer) :: earlier)
      ∧ now.isOpen = true ∧ now.unread = [68, 69, 70]
      ∧ Checkpoint.capture now.close ≠ { Checkpoint.capture now with isOpen := .bool false }
      ∧ (Checkpoint.capture now.close).position = .int request.offset
      ∧ request.offset < now.pointer := by
  obtain ⟨c, hc, outcomes, now, log, hrun, hopen, hunread⟩ :
      ∃ c, Channel.opened sampleId [] = .ok c ∧ ∃ outcomes now log,
        Channel.performAll Source.overfull.logged [.readInto 3] c ((), [])
          = (outcomes, now, (), log) ∧ now.isOpen = true ∧ now.unread = [68, 69, 70] :=
    ⟨_, rfl, _, _, _, rfl, rfl, rfl⟩
  have hsome : now.unread ≠ [] := by
    rw [hunread]
    exact List.cons_ne_nil _ _
  obtain ⟨-, hiff, hleft⟩ :=
    closing_gives_up_chunk Source.overfull (.opened hc) [.readInto 3] () hrun hopen
  obtain ⟨request, answer, earlier, rfl, hcapture, -, hlt, -⟩ := hleft hsome
  exact ⟨c, outcomes, now, request, answer, earlier, .opened hc, hrun, hopen, hunread,
    mt hiff.mp hsome, congrArg Checkpoint.position hcapture, hlt⟩

/-- **Closing may move the checkpoint of a channel**, and end it. -/
theorem closing_moves_checkpoint :
    ¬ ∀ (σ : Type) (source : Source σ) (c : Channel), c.Made →
      ∀ (ops : List Operation) (s : σ) (now : Channel) (t : σ),
        (Channel.performAll source ops c s).2 = (now, t) → now.isOpen = true →
          Checkpoint.capture now.close = { Checkpoint.capture now with isOpen := .bool false } := by
  intro hkept
  have hc : Channel.opened sampleId [] = .ok _ := rfl
  have hsame := hkept Unit Source.overfull _ (.opened hc) [.readInto 3] () _ _ rfl rfl
  have hposition : Value.int 0 = Value.int 3 := congrArg Checkpoint.position hsame
  injection hposition with hint
  exact absurd hint (by decide)

end RangeReader

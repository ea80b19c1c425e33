import RangeReader.Proofs.FailedReads
import RangeReader.Proofs.Finality
import RangeReader.Proofs.TagConsistency

/-!
# A change that was noticed

A channel that finds another tag than the one it remembers fails, and from then
on it stands still. It has no chunk and no end that a read could look at first,
and the change is looked at before the limit and before the room there is. So
every read fails with the same fault, whatever the limit is set to, and asks its
source for nothing (`StoppedBy.performAll`).

The tags are compared once the retry policy is through with the fetch. A policy
that retries every fault there is does not get to see this one: the answer that
revealed the change is the last thing that was got from the source, and after
it there is only a line in the journal (`Revealed`).

A move ends it. The tag that is remembered is still the old one, so the next
bytes are compared with it if the next answer has bytes. An answer without any
is not compared and puts its own tag in the place of the old one, and then it
ends the stream. So the tag can only be lost where another move follows such an
answer (`Compares`, `StopsAtEmpty`), and there it is
(`accepted_after_empty_answer`).
-/

namespace RangeReader

/-- **What comes of an operation while a change is known**: reads fail, unless
they are to read nothing. -/
def Operation.outcomeStopped (fault : Fault) (place : Nat) : Operation → Outcome
  | .readInto _ => .failed fault
  | .read size => if size = 0 then .data [] else .failed fault
  | .setLimit target => .ofResult (fun _ => .done) (Channel.bound .limit target)
  | .tell => .offset place
  | _ => .done

/-- **The tag that the next bytes are compared with**, by the receipts of the answers
since a move: that of the last one, or the one remembered if there is none. -/
def tagAfter (remembered : Option String) : List Receipt → Option String
  | [] => remembered
  | last :: _ => last.etag

namespace Channel

variable {σ : Type} {source : Source σ} {capacity : Nat} {c after : Channel} {s s' : σ}
variable {m : Modification}

/-! ## Standing still -/

/-- **A channel that a change has stopped.** -/
structure StoppedBy (c : Channel) (m : Modification) : Prop where
  isOpen : c.isOpen = true
  modification_eq : c.modification = some m
  unread_eq : c.unread = []
  not_ended : c.ended = false

namespace StoppedBy

/-- A change leaves neither a chunk nor an end behind. -/
theorem of_coherent (h : c.Coherent) (ho : c.isOpen = true) (hm : c.modification = some m) :
    c.StoppedBy m := by
  refine ⟨ho, hm, ?_, h.not_ended (by simp [hm])⟩
  by_contra hunread
  simp [h.unmodified hunread] at hm

theorem readInto (h : c.StoppedBy m) (source : Source σ) (capacity : Nat) (s : σ) :
    c.readInto source capacity s = (.failed (c.modified m), c, s) := by
  simp [Channel.readInto, h.isOpen, h.unread_eq, h.not_ended, h.modification_eq]

/-- Reading bytes fails at the first of them. -/
theorem read (h : c.StoppedBy m) (source : Source σ) (size : Int) (s : σ) :
    c.read source size s = (if size = 0 then .ok [] else .error (c.modified m), c, s) := by
  unfold Channel.read
  rw [if_neg (by simp [h.isOpen])]
  by_cases hneg : size < 0
  · rw [if_pos hneg, if_neg (by omega)]
    exact drain_of_failed (h.readInto source _ s)
  · rw [if_neg hneg]
    by_cases hzero : size = 0
    · rw [if_pos hzero]
      exact fill_of_none (by omega)
    · rw [if_neg hzero]
      exact fill_of_failed (by omega) (h.readInto source _ s)

/-- **An operation of a channel that is stopped**: its outcome is decided, the
source has no part in it, and the channel is stopped by the same change at the
same place, with the same tag. -/
theorem perform (h : c.StoppedBy m) {op : Operation} (hop : op.Stays) (source : Source σ) (s : σ) :
    ∃ after, c.perform source op s = (op.outcomeStopped (c.modified m) c.pointer, after, s)
      ∧ after.StoppedBy m ∧ after.pointer = c.pointer ∧ after.lastEtag = c.lastEtag
      ∧ after.modified m = c.modified m := by
  cases op with
  | readInto capacity =>
    refine ⟨c, ?_, h, rfl, rfl, rfl⟩
    rw [perform_readInto, h.readInto]
    rfl
  | read size =>
    refine ⟨c, ?_, h, rfl, rfl, rfl⟩
    show (Outcome.ofResult .data (c.read source size s).1, (c.read source size s).2) = _
    rw [h.read, Operation.outcomeStopped]
    split <;> rfl
  | setLimit target =>
    rw [perform_setLimit, Operation.outcomeStopped]
    unfold Channel.setLimit
    cases bound .limit target with
    | error fault => exact ⟨c, rfl, h, rfl, rfl, rfl⟩
    | ok limit =>
      exact ⟨{ c with limit := limit }, rfl,
        ⟨h.isOpen, h.modification_eq, h.unread_eq, h.not_ended⟩, rfl, rfl, rfl⟩
  | setChunkSize n =>
    exact ⟨c.setChunkSize n, rfl, ⟨h.isOpen, h.modification_eq, h.unread_eq, h.not_ended⟩, rfl,
      rfl, rfl⟩
  | tell =>
    refine ⟨c, ?_, h, rfl, rfl, rfl⟩
    show (Outcome.ofResult .offset c.tell, c, s) = _
    rw [tell_open h.isOpen]
    rfl
  | seek target => exact hop.elim
  | readAndClose size => exact hop.elim
  | close => exact hop.elim

/-- **A run of a channel that is stopped.** -/
theorem performAll (h : c.StoppedBy m) {ops : List Operation} (hops : ∀ op ∈ ops, op.Stays)
    (source : Source σ) (s : σ) :
    ∃ after, Channel.performAll source ops c s
        = (ops.map (Operation.outcomeStopped (c.modified m) c.pointer), after, s)
      ∧ after.StoppedBy m ∧ after.pointer = c.pointer ∧ after.lastEtag = c.lastEtag := by
  induction ops generalizing c with
  | nil => exact ⟨c, rfl, h, rfl, rfl⟩
  | cons op ops ih =>
    obtain ⟨next, hnext, hstopped, hpointer, htag, hfault⟩ :=
      h.perform (hops op List.mem_cons_self) source s
    obtain ⟨after, hrest, hafter, hplace, htag'⟩ :=
      ih hstopped fun o ho => hops o (List.mem_cons_of_mem op ho)
    refine ⟨after, ?_, hafter, hplace.trans hpointer, htag'.trans htag⟩
    rw [performAll_cons, hnext, hrest, hfault, hpointer]
    rfl

end StoppedBy

/-! ## The answer that revealed it -/

/-- **An answer that reveals a change**: it has bytes, and another tag than the one
that the channel remembers. -/
structure RevealedBy (c : Channel) (m : Modification) (request : RangeRequest)
    (answer : Fetched) : Prop where
  data_ne : answer.data.take request.length ≠ []
  modification_eq : m = ⟨c.lastEtag, answer.etag⟩
  clashes : ∃ tag, c.lastEtag = some tag ∧ answer.etag ≠ some tag

/-- **Nothing was asked since a change was revealed**: all that has happened to the
source after the answer is that the change was reported. -/
def Revealed (source : Source σ) (c : Channel) (s : σ) : Prop :=
  ∀ m, c.modification = some m → ∃ request answer t u, c.RevealedBy m request answer
    ∧ source.fetch request t = (.ok answer, u)
    ∧ s = source.note (.modified c.object.text m.expected m.actual) u

namespace Revealed

theorem of_none (hm : c.modification = none) : c.Revealed source s := by
  intro m hsome
  simp [hm] at hsome

/-- It is about the change, the tag and the object only. -/
theorem of_eq (h : c.Revealed source s) (hm : after.modification = c.modification)
    (htag : after.lastEtag = c.lastEtag) (hobject : after.object = c.object) :
    after.Revealed source s := by
  intro m hsome
  obtain ⟨request, answer, t, u, ⟨hdata, hmodification, hclash⟩, hfetch, hstate⟩ :=
    h m (hm ▸ hsome)
  refine ⟨request, answer, t, u, ⟨hdata, ?_, ?_⟩, hfetch, ?_⟩
  · rw [htag, hmodification]
  · rw [htag]
    exact hclash
  · rw [hobject, hstate]

/-- **Every read keeps it so.** -/
theorem readStep {d : Delivery} (h : c.Revealed source s)
    (step : ReadStep source capacity c s d after s') : after.Revealed source s' := by
  cases step with
  | served =>
    refine h.of_eq (modification_passed c _) (lastEtag_passed c _) ?_
    exact congrArg Prod.fst (target_passed c _)
  | unanswered _ _ hf => exact of_none hf.unmodified
  | refused answer u hf ha hclash =>
    rintro m ⟨⟩
    obtain ⟨hdata, hother⟩ := (clashes_iff c _ _).mp hclash
    exact ⟨_, answer, _, u, ⟨hdata, rfl, hother⟩, ha, rfl⟩
  | nothing _ _ hf => exact of_none hf.unmodified
  | fetched _ _ filled hf _ _ _ hfilled =>
    refine of_none ?_
    rw [modification_passed, hfilled]
    exact hf.unmodified
  | _ => exact h.of_eq rfl rfl rfl

/-- **Every operation keeps it so.** -/
theorem perform (h : c.Revealed source s) (op : Operation) :
    (c.perform source op s).2.1.Revealed source (c.perform source op s).2.2 :=
  perform_preserves (P := Revealed source) (fun _ _ _ _ _ _ h step => h.readStep step)
    (fun _ _ h => h.of_eq rfl rfl rfl) (fun _ _ _ _ => of_none rfl)
    (fun _ _ _ _ => h.of_eq rfl rfl rfl) (fun _ _ => h.of_eq rfl rfl rfl) h

theorem performAll (h : c.Revealed source s) (ops : List Operation) :
    (performAll source ops c s).2.1.Revealed source (performAll source ops c s).2.2 :=
  performAll_preserves (P := Revealed source) (fun op _ _ h => h.perform op) ops h

/-- **Behind a policy it was the last attempt**, and one that the policy does not
retry. -/
theorem last_attempt {policy : RetryPolicy Fetched σ}
    (h : c.Revealed (source.retrying policy) s) (hm : c.modification = some m) :
    ∃ request answer t u, c.RevealedBy m request answer
      ∧ source.fetch request t = (.ok answer, u) ∧ policy.retries (.ok answer) = false
      ∧ s = source.note (.modified c.object.text m.expected m.actual) u := by
  obtain ⟨request, answer, t, u, hreveals, hfetch, hstate⟩ := h m hm
  obtain ⟨v, hattempt, hkept⟩ := RetryPolicy.operate_last hfetch
  exact ⟨request, answer, v, u, hreveals, hattempt, hkept, hstate⟩

end Revealed

/-! ## The fault for it -/

/-- **A read fails because of a change** that the channel knows of then, unless its
source has failed like that. -/
theorem noticed_of_readStep {object : String} {expected actual : Option String}
    (step : ReadStep source capacity c s (.failed (.modified object expected actual)) after s') :
    (after.modification = some ⟨expected, actual⟩ ∧ object = c.object.text)
      ∨ ∃ request t, (source.fetch request t).1 = .error (.modified object expected actual) := by
  generalize hd : Delivery.failed (.modified object expected actual) = d at step
  cases step with
  | changed m _ _ _ hm =>
    cases hd
    exact .inl ⟨hm, rfl⟩
  | refused =>
    cases hd
    exact .inl ⟨rfl, rfl⟩
  | unanswered fault _ _ ha =>
    cases hd
    exact .inr ⟨_, _, congrArg Prod.fst ha⟩
  | _ => cases hd

/-- The read that fails is the last one of those that break off. -/
theorem BreaksOff.last {rooms : List Nat} {pieces : List (List UInt8)} {fault : Fault}
    (h : BreaksOff source rooms c s pieces fault after s') :
    ∃ room before t, ReadStep source room before t (.failed fault) after s'
      ∧ before.object = c.object := by
  induction h with
  | failed read => exact ⟨_, _, _, .of_eq read, rfl⟩
  | piece read _ ih =>
    obtain ⟨room, before, t, hstep, hobject⟩ := ih
    exact ⟨room, before, t, hstep,
      hobject.trans (congrArg Prod.fst (target_readStep (.of_eq read)))⟩

theorem noticed_of_read {size : Int} {object : String} {expected actual : Option String}
    (h : c.read source size s = (.error (.modified object expected actual), after, s')) :
    (after.modification = some ⟨expected, actual⟩ ∧ object = c.object.text)
      ∨ ∃ request t, (source.fetch request t).1 = .error (.modified object expected actual) := by
  cases ho : c.isOpen with
  | false =>
    rw [Channel.read, ho] at h
    cases h
  | true =>
    obtain ⟨pieces, hbreaks, -⟩ := breaksOff_of_read ho h
    obtain ⟨room, before, t, hstep, hobject⟩ := hbreaks.last
    rw [← hobject]
    exact noticed_of_readStep hstep

theorem modification_close (c : Channel) : c.close.modification = c.modification := by
  unfold close
  split <;> rfl

/-- **So does every operation.** -/
theorem noticed_of_perform {op : Operation} {object : String} {expected actual : Option String}
    (h : c.perform source op s = (.failed (.modified object expected actual), after, s')) :
    (after.modification = some ⟨expected, actual⟩ ∧ object = c.object.text)
      ∨ ∃ request t, (source.fetch request t).1 = .error (.modified object expected actual) := by
  have hbound {what : Bound} {target : Value} : ∀ fault, bound what target = .error fault →
      fault ≠ .modified object expected actual := by
    unfold bound
    intro fault hfault
    split at hfault
    · split at hfault <;> cases hfault
      exact nofun
    · cases hfault
      exact nofun
  cases op with
  | readInto capacity =>
    rw [perform_readInto] at h
    rcases hr : c.readInto source capacity s with ⟨d, next, t⟩
    rw [hr] at h
    cases d <;> cases h
    exact noticed_of_readStep (.of_eq hr)
  | read size =>
    rcases hr : c.read source size s with ⟨result, next, t⟩
    simp only [Channel.perform, hr] at h
    cases result <;> cases h
    exact noticed_of_read hr
  | readAndClose size =>
    rcases hr : c.read source size s with ⟨result, next, t⟩
    simp only [Channel.perform, readAndClose, hr] at h
    cases result <;> cases h
    rw [modification_close]
    exact noticed_of_read hr
  | seek target =>
    rw [perform_seek] at h
    unfold Channel.seek at h
    split at h
    · rename_i hfault
      unfold checkOpen at hfault
      split at hfault <;> cases hfault
      cases h
    · rename_i fault _ hfault
      cases h
      exact absurd rfl (hbound _ hfault)
    · cases h
  | setLimit target =>
    rw [perform_setLimit] at h
    unfold Channel.setLimit at h
    cases hb : bound .limit target with
    | error fault =>
      rw [hb] at h
      cases h
      exact absurd rfl (hbound _ hb)
    | ok limit =>
      rw [hb] at h
      cases h
  | setChunkSize n => cases h
  | tell =>
    simp only [Channel.perform, tell, checkOpen] at h
    split at h <;> cases h
  | close => cases h

/-! ## After a move -/

section Receipts

variable {t t' : σ × List Receipt} {remembered : Option String}

/-- **A channel that compares the first bytes it gets** with the tag that it remembers,
or with that of an answer without bytes that came before them. -/
structure Compares (remembered : Option String) (c : Channel) (t : σ × List Receipt) : Prop where
  lastEtag_eq : (∀ r ∈ t.2, r.data = []) → c.lastEtag = tagAfter remembered t.2
  compared : ∀ later r empties, t.2 = later ++ r :: empties → r.data ≠ [] →
    (∀ e ∈ empties, e.data = []) →
      (r.refused = true ↔ ∃ tag, tagAfter remembered empties = some tag ∧ r.etag ≠ some tag)

namespace Compares

/-- Nothing has come yet. -/
theorem start (u : σ) : Compares c.lastEtag c (u, []) :=
  ⟨fun _ => rfl, fun later r empties h => by simp at h⟩

/-- Only the tag matters, and the receipts. -/
theorem of_eq (h : Compares remembered c t) (htag : after.lastEtag = c.lastEtag)
    (hlog : t'.2 = t.2) : Compares remembered after t' := by
  refine ⟨?_, ?_⟩
  · rw [hlog, htag]
    exact h.lastEtag_eq
  · rw [hlog]
    exact h.compared

/-- One answer more: if it has bytes it was compared with the tag remembered, and if
it has none the channel has its tag now. -/
theorem cons (h : Compares remembered c t) {last : Receipt} (hlog : t'.2 = last :: t.2)
    (hbytes : last.data ≠ [] →
      (last.refused = true ↔ ∃ tag, c.lastEtag = some tag ∧ last.etag ≠ some tag))
    (hempty : last.data = [] → after.lastEtag = last.etag) : Compares remembered after t' := by
  refine ⟨?_, ?_⟩
  · rw [hlog]
    exact fun hall => hempty (hall last List.mem_cons_self)
  · rw [hlog]
    intro later r empties hsplit hdata hall
    cases later with
    | nil =>
      obtain ⟨rfl, rfl⟩ := List.cons.inj hsplit
      rw [← h.lastEtag_eq hall]
      exact hbytes hdata
    | cons first later =>
      obtain ⟨-, hrest⟩ := List.cons.inj hsplit
      exact h.compared later r empties hrest hdata hall

/-- **Every read keeps it so.** -/
theorem readStep {d : Delivery} (h : Compares remembered c t)
    (step : ReadStep source.receipted capacity c t d after t') : Compares remembered after t' := by
  cases step with
  | served => exact h.of_eq (lastEtag_passed c _) rfl
  | unanswered _ _ _ ha => exact h.of_eq rfl (receipts_of_fault ha)
  | refused answer _ _ ha hclash =>
    obtain ⟨hdata, hother⟩ := (clashes_iff c _ _).mp hclash
    exact h.cons (receipts_of_refusal ha _ _ _) (fun _ => ⟨fun _ => hother, fun _ => rfl⟩)
      fun hnil => absurd hnil hdata
  | nothing answer _ _ ha hnil =>
    exact h.cons (receipts_of_answer ha) (fun hdata => absurd (by simp [hnil]) hdata) fun _ => rfl
  | fetched answer _ filled _ ha hagrees hdata hfilled =>
    refine h.cons (receipts_of_answer ha) (fun _ => ?_) fun hnil => absurd hnil hdata
    -- an answer that is taken is one that does not clash
    have hiff := clashes_iff c answer.etag (answer.data.take (c.wanted capacity))
    rw [hagrees] at hiff
    exact ⟨nofun, fun hother => absurd (hiff.mpr ⟨hdata, hother⟩) Bool.false_ne_true⟩
  | _ => exact h.of_eq rfl rfl

/-- **Every operation keeps it so**, a move included. -/
theorem perform (h : Compares remembered c t) (op : Operation) :
    Compares remembered (c.perform source.receipted op t).2.1
      (c.perform source.receipted op t).2.2 :=
  perform_preserves (P := Compares remembered) (fun _ _ _ _ _ _ h step => h.readStep step)
    (fun _ _ h => h.of_eq rfl rfl) (fun _ _ _ _ => h.of_eq rfl rfl)
    (fun _ _ _ _ => h.of_eq rfl rfl) (fun _ _ => h.of_eq rfl rfl) h

theorem performAll (h : Compares remembered c t) (ops : List Operation) :
    Compares remembered (Channel.performAll source.receipted ops c t).2.1
      (Channel.performAll source.receipted ops c t).2.2 :=
  performAll_preserves (P := Compares remembered) (fun op _ _ h => h.perform op) ops h

end Compares

/-- **A channel that an answer without bytes ends**: no answer comes after one. -/
structure StopsAtEmpty (c : Channel) (t : σ × List Receipt) : Prop where
  ended_of_empty : ∀ r ∈ t.2, r.data = [] → c.ended = true ∧ c.unread = []
  data_ne : ∀ r ∈ t.2.tail, r.data ≠ []

namespace StopsAtEmpty

/-- One answer more to a channel that has not ended. -/
theorem cons (h : c.StopsAtEmpty t) (he : c.ended = false) {last : Receipt}
    (hlog : t'.2 = last :: t.2)
    (hempty : last.data = [] → after.ended = true ∧ after.unread = []) :
    after.StopsAtEmpty t' := by
  have hbytes : ∀ r ∈ t.2, r.data ≠ [] := by
    intro r hr hnil
    simp [(h.ended_of_empty r hr hnil).1] at he
  refine ⟨?_, ?_⟩
  · rw [hlog]
    intro r hr hnil
    rcases List.mem_cons.mp hr with rfl | hr
    · exact hempty hnil
    · exact absurd hnil (hbytes r hr)
  · rw [hlog]
    exact hbytes

theorem of_eq (h : c.StopsAtEmpty t)
    (hended : c.ended = true → c.unread = [] → after.ended = true ∧ after.unread = [])
    (hlog : t'.2 = t.2) : after.StopsAtEmpty t' := by
  refine ⟨?_, ?_⟩
  · rw [hlog]
    intro r hr hnil
    obtain ⟨he, hu⟩ := h.ended_of_empty r hr hnil
    exact hended he hu
  · rw [hlog]
    exact h.data_ne

theorem readStep {d : Delivery} (h : c.StopsAtEmpty t)
    (step : ReadStep source.receipted capacity c t d after t') : after.StopsAtEmpty t' := by
  cases step with
  | cutOff => exact h.of_eq (fun _ _ => ⟨rfl, rfl⟩) rfl
  | served _ hu => exact h.of_eq (fun _ hnil => absurd hnil hu) rfl
  | bounded _ hu => exact h.of_eq (fun _ _ => ⟨rfl, hu⟩) rfl
  | unanswered _ _ _ ha => exact h.of_eq (fun he hu => ⟨he, hu⟩) (receipts_of_fault ha)
  | refused answer _ hf ha hclash =>
    exact h.cons hf.not_ended (receipts_of_refusal ha _ _ _) fun hnil =>
      absurd hnil ((clashes_iff c _ _).mp hclash).1
  | nothing answer _ hf ha =>
    exact h.cons hf.not_ended (receipts_of_answer ha) fun _ => ⟨decide_eq_true hf.wanted_pos, rfl⟩
  | fetched answer _ filled hf ha _ hdata =>
    exact h.cons hf.not_ended (receipts_of_answer ha) fun hnil => absurd hnil hdata
  | _ => exact h.of_eq (fun he hu => ⟨he, hu⟩) rfl

/-- **Every operation but a move keeps it so.** -/
theorem perform {op : Operation} (hop : ∀ target, op ≠ .seek target) (h : c.StopsAtEmpty t) :
    (c.perform source.receipted op t).2.1.StopsAtEmpty (c.perform source.receipted op t).2.2 :=
  perform_preserves (P := StopsAtEmpty) (fun _ _ _ _ _ _ h step => h.readStep step)
    (fun _ _ h => h.of_eq (fun he _ => ⟨he, rfl⟩) rfl)
    (fun target _ hseek => absurd hseek (hop target))
    (fun _ _ _ _ => h.of_eq (fun he hu => ⟨he, hu⟩) rfl)
    (fun _ _ => h.of_eq (fun he hu => ⟨he, hu⟩) rfl) h

theorem performAll {ops : List Operation} (hops : ∀ target, .seek target ∉ ops)
    (h : c.StopsAtEmpty t) :
    (Channel.performAll source.receipted ops c t).2.1.StopsAtEmpty
      (Channel.performAll source.receipted ops c t).2.2 := by
  induction ops generalizing c t with
  | nil => exact h
  | cons op ops ih =>
    refine ih (fun target hmem => hops target (List.mem_cons_of_mem op hmem)) (h.perform ?_)
    rintro target rfl
    exact hops target List.mem_cons_self

/-- So no answer without bytes is before one with bytes. -/
theorem empties_eq_nil (h : c.StopsAtEmpty t) {later empties : List Receipt} {r : Receipt}
    (hsplit : t.2 = later ++ r :: empties) (hempty : ∀ e ∈ empties, e.data = []) :
    empties = [] := by
  have htail : ∀ e ∈ empties, e ∈ t.2.tail := by
    intro e he
    rw [hsplit]
    cases later with
    | nil => exact he
    | cons first later =>
      exact List.mem_append_right later (List.mem_cons_of_mem r he)
  exact List.eq_nil_iff_forall_not_mem.mpr fun e he => h.data_ne e (htail e he) (hempty e he)

end StopsAtEmpty

end Receipts

end Channel

/-! ## The theorem -/

/-- **A change that was noticed stops a channel until it is moved.** Take any channel,
opened or restored, over any source behind any retry policy, after any operations.

* An operation that fails because of a change leaves a channel that knows of it,
  unless the fetch itself has failed like that.
* If the channel knows of a change, the answer that revealed it was that of the last
  attempt. The policy took it, and all that has happened since is that the change was
  reported.
* Operations that neither move nor close it have the outcomes that
  `Operation.outcomeStopped` says: every read fails with the fault for that change,
  unless it is to read nothing, whatever the limit and the size of chunks are. The
  source is left as it is, and so are `tell` and the tag remembered.
* After a move, the first answer with bytes is refused if and only if it has another
  tag than the one remembered; but where answers without bytes came before it, it is
  compared with the tag of the last one of these instead, if that has one. Without a
  second move there are none before it. -/
theorem change_stops_until_move {σ : Type} (source : Source σ) (policy : RetryPolicy Fetched σ)
    {start : Channel} (hstart : start.Made) (ops : List Operation) (s : σ)
    {outcomes : List Outcome} {c : Channel} {t : σ}
    (hrun : Channel.performAll (source.retrying policy) ops start s = (outcomes, c, t)) :
    (∀ op object expected actual after u,
        c.perform (source.retrying policy) op t
          = (.failed (.modified object expected actual), after, u) →
        (after.modification = some ⟨expected, actual⟩ ∧ object = c.object.text)
          ∨ ∃ request v, ((source.retrying policy).fetch request v).1
            = .error (.modified object expected actual))
      ∧ ∀ m, c.modification = some m →
        (∃ request answer v u, c.RevealedBy m request answer
            ∧ source.fetch request v = (.ok answer, u) ∧ policy.retries (.ok answer) = false
            ∧ t = source.note (.modified c.object.text m.expected m.actual) u)
          ∧ (c.isOpen = true → ∀ more, (∀ op ∈ more, op.Stays) →
            ∃ last, Channel.performAll (source.retrying policy) more c t
                = (more.map (Operation.outcomeStopped (c.modified m) c.pointer), last, t)
              ∧ last.tell = c.tell ∧ last.lastEtag = c.lastEtag
              ∧ ∀ (position : Nat) later results reader v receipts,
                Channel.performAll (source.retrying policy).receipted
                    (.seek (.int position) :: later) last (t, [])
                  = (results, reader, v, receipts) →
                ∀ newer r empties, receipts = newer ++ r :: empties → r.data ≠ [] →
                  (∀ e ∈ empties, e.data = []) →
                  (r.refused = true
                      ↔ ∃ tag, tagAfter c.lastEtag empties = some tag ∧ r.etag ≠ some tag)
                    ∧ ((∀ target, .seek target ∉ later) → empties = [])) := by
  have hcoherent : c.Coherent := by
    have hkept : (Channel.performAll (source.retrying policy) ops start s).2.1.Coherent :=
      Channel.performAll_preserves (P := fun c _ => c.Coherent)
        (fun op _ _ h => h.perform op) ops (.of_made hstart)
    rw [hrun] at hkept
    exact hkept
  have hrevealed : c.Revealed (source.retrying policy) t := by
    have hunknown : start.Revealed (source.retrying policy) s := .of_none hstart.unread_eq.2.2
    have hkept := hunknown.performAll ops
    rw [hrun] at hkept
    exact hkept
  refine ⟨fun op object expected actual after u h => Channel.noticed_of_perform h,
    fun m hm => ⟨hrevealed.last_attempt hm, fun ho more hmore => ?_⟩⟩
  obtain ⟨last, hlast, hstopped, hpointer, htag⟩ :=
    (Channel.StoppedBy.of_coherent hcoherent ho hm).performAll hmore (source.retrying policy) t
  refine ⟨last, hlast, ?_, htag, ?_⟩
  · rw [Channel.tell_open hstopped.isOpen, Channel.tell_open ho, hpointer]
  · intro position later results reader v receipts hlater newer r empties hsplit hdata hempty
    have hcompares : Channel.Compares last.lastEtag
        (Channel.performAll (source.retrying policy).receipted
          (.seek (.int position) :: later) last (t, [])).2.1 _ :=
      (Channel.Compares.start t).performAll _
    rw [hlater, htag] at hcompares
    refine ⟨hcompares.compared newer r empties hsplit hdata hempty, fun hnomove => ?_⟩
    -- right after the move no answer has come
    have hstops : (last.perform (source.retrying policy).receipted (.seek (.int position))
        (t, [])).2.1.StopsAtEmpty (last.perform (source.retrying policy).receipted
          (.seek (.int position)) (t, [])).2.2 := by
      rw [Channel.perform_seek, Channel.seek_natCast _ hstopped.isOpen]
      exact ⟨nofun, nofun⟩
    have hend : (Channel.performAll (source.retrying policy).receipted later
        _ _).2.1.StopsAtEmpty _ := hstops.performAll hnomove
    rw [Channel.performAll_cons, Prod.mk.injEq] at hlater
    rw [hlater.2] at hend
    exact hend.empties_eq_nil hsplit hempty

/-- A policy that retries every fault. -/
def RetryPolicy.stubborn : RetryPolicy Fetched (List Fetched) :=
  { RetryPolicy.standard with retries := RetryPolicy.onFaults fun _ => true }

/-- A use that meets the second of two contents. -/
def sampleMeeting : List Operation := [.setChunkSize 4, .readInto 4, .readInto 4]

theorem change_stops_until_move_sample :
    ∃ start c, start.Made
      ∧ Channel.performAll (Source.scripted.retrying RetryPolicy.stubborn) sampleMeeting start
          (sampleChange ++ [⟨some "v2", [89, 90]⟩])
        = ([.done, .delivered (.bytes [65, 66, 67, 68]),
            .failed (.modified "gs://bucket/name" (some "v1") (some "v2"))], c,
          [⟨some "v2", [89, 90]⟩])
      ∧ ∃ last, Channel.performAll (Source.scripted.retrying RetryPolicy.stubborn)
            [.setLimit (.int 0), .readInto 0, .setChunkSize 9, .read (-1)] c
            [⟨some "v2", [89, 90]⟩]
          = ([.done, .failed (.modified "gs://bucket/name" (some "v1") (some "v2")), .done,
              .failed (.modified "gs://bucket/name" (some "v1") (some "v2"))], last,
            [⟨some "v2", [89, 90]⟩])
        ∧ last.tell = .ok 4 ∧ last.lastEtag = some "v1" := by
  obtain ⟨start, c, hstart, hrun, hopen, htell, htag, hmodification⟩ :
      ∃ start c, Channel.opened sampleId [] = .ok start
        ∧ Channel.performAll (Source.scripted.retrying RetryPolicy.stubborn) sampleMeeting start
            (sampleChange ++ [⟨some "v2", [89, 90]⟩])
          = ([.done, .delivered (.bytes [65, 66, 67, 68]),
              .failed (.modified "gs://bucket/name" (some "v1") (some "v2"))], c,
            [⟨some "v2", [89, 90]⟩])
        ∧ c.isOpen = true ∧ c.tell = .ok 4 ∧ c.lastEtag = some "v1"
        ∧ c.modification = some ⟨some "v1", some "v2"⟩ :=
    ⟨_, _, rfl, rfl, rfl, rfl, rfl, rfl⟩
  have hobject : c.object = start.object := by
    have hkept := Channel.target_performAll (Source.scripted.retrying RetryPolicy.stubborn)
      sampleMeeting start (sampleChange ++ [⟨some "v2", [89, 90]⟩])
    rw [hrun] at hkept
    exact congrArg Prod.fst hkept
  have hfault : c.modified ⟨some "v1", some "v2"⟩
      = .modified "gs://bucket/name" (some "v1") (some "v2") := by
    unfold Channel.modified
    rw [hobject]
    cases hstart
    rfl
  obtain ⟨-, hchange⟩ := change_stops_until_move Source.scripted RetryPolicy.stubborn
    (.opened hstart) sampleMeeting _ hrun
  obtain ⟨-, hstopped⟩ := hchange _ hmodification
  obtain ⟨last, hlast, hplace, hsame, -⟩ := hstopped hopen
    [.setLimit (.int 0), .readInto 0, .setChunkSize 9, .read (-1)]
    (by simp [Operation.Stays])
  rw [hfault] at hlast
  exact ⟨start, c, .opened hstart, hrun, last, hlast, hplace.trans htell, hsame.trans htag⟩

/-- **After an answer without bytes the tag is another one.** A channel that knows of
a change is moved past the end of the object, gets an empty answer without a tag, and
is moved back: the bytes of the new content are accepted, though their tag is not the
one that was remembered when the change was noticed. -/
theorem accepted_after_empty_answer :
    ¬ ∀ (σ : Type) (source : Source σ) (start : Channel), start.Made →
      ∀ (ops : List Operation) (s : σ) (outcomes : List Outcome) (c : Channel) (t : σ),
        Channel.performAll source ops start s = (outcomes, c, t) →
        ∀ m, c.modification = some m → ∀ (position : Nat) (later : List Operation)
          (results : List Outcome) (reader : Channel) (v : σ) (receipts : List Receipt),
          Channel.performAll source.receipted (.seek (.int position) :: later) c (t, [])
            = (results, reader, v, receipts) →
          ∀ newer r empties, receipts = newer ++ r :: empties → r.data ≠ [] →
            (∀ e ∈ empties, e.data = []) →
            (r.refused = true ↔ ∃ tag, c.lastEtag = some tag ∧ r.etag ≠ some tag) := by
  intro hcompared
  obtain ⟨start, c, results, reader, hstart, hrun, htag, hmodification, hlater⟩ :
      ∃ start c results reader, Channel.opened sampleId [] = .ok start
        ∧ Channel.performAll Source.scripted sampleMeeting start
            (sampleChange ++ [⟨none, []⟩, ⟨some "v2", [89, 90]⟩])
          = ([.done, .delivered (.bytes [65, 66, 67, 68]),
              .failed (.modified "gs://bucket/name" (some "v1") (some "v2"))], c,
            [⟨none, []⟩, ⟨some "v2", [89, 90]⟩])
        ∧ c.lastEtag = some "v1" ∧ c.modification = some ⟨some "v1", some "v2"⟩
        ∧ Channel.performAll Source.scripted.receipted
            [.seek (.int 10), .readInto 1, .seek (.int 2), .readInto 2] c
            ([⟨none, []⟩, ⟨some "v2", [89, 90]⟩], [])
          = (results, reader, [], [⟨some "v2", [89, 90], false⟩, ⟨none, [], false⟩]) :=
    ⟨_, _, _, _, rfl, rfl, rfl, rfl, rfl⟩
  have hrefused := (hcompared _ _ _ (.opened hstart) _ _ _ _ _ hrun _ hmodification _ _ _ _ _ _
    hlater [] ⟨some "v2", [89, 90], false⟩ [⟨none, [], false⟩] rfl (by decide) (by simp)).mpr
    ⟨"v1", htag, by decide⟩
  cases hrefused

end RangeReader

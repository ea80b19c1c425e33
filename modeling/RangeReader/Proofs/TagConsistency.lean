import RangeReader.Proofs.Receipts

/-!
# What the tags of answers guarantee

A channel compares the tag of every answer with the tag it remembers, and
refuses the answer where they differ. What it remembers is the tag of the last
answer that it accepted (`standingTag`), not of the first one; and an answer
without bytes is accepted whatever its tag.

So the tag is enforced from one answer with bytes to the next one, for as long
as there was no empty answer in between with another tag or none. After such
an answer the bytes of another content pass. A source that has nothing past
the end of its object gives one for the asking: seek there, read, and come
back. The last section has the whole of what holds, and a run in which the
first tag is lost.

A refusal itself is watertight. It ends the operation, which fails and gives
none of the bytes it had, and nothing of the refused answer stays in the
channel (`Settled`).
-/

namespace RangeReader

/-! ## The tag in force -/

/-- **The tag that the next answer is checked against**: that of the last
answer that was accepted. -/
def standingTag : List Receipt → Option String
  | [] => none
  | receipt :: earlier => if receipt.refused then standingTag earlier else receipt.etag

/-- **Receipts of answers that were checked**: those with bytes were refused
where there was a tag in force and they had another one, and no others. -/
def Checked : List Receipt → Prop
  | [] => True
  | receipt :: earlier =>
    (receipt.refused = true
      ↔ receipt.data ≠ [] ∧ ∃ tag, standingTag earlier = some tag ∧ receipt.etag ≠ some tag)
    ∧ Checked earlier

theorem standingTag_accepted {receipt : Receipt} (h : receipt.refused = false)
    (earlier : List Receipt) : standingTag (receipt :: earlier) = receipt.etag := by
  rw [standingTag, if_neg (by rw [h]; decide)]

theorem standingTag_refused {receipt : Receipt} (h : receipt.refused = true)
    (earlier : List Receipt) : standingTag (receipt :: earlier) = standingTag earlier := by
  rw [standingTag, if_pos h]

/-- **A tag stays in force** while the empty answers have it too. -/
theorem Checked.standingTag_eq {tag : String} {first : Receipt} {earlier later : List Receipt}
    (h : Checked (later ++ first :: earlier)) (hfirst : first.refused = false)
    (htag : first.etag = some tag)
    (hempty : ∀ r ∈ later, r.data = [] → r.etag = some tag) :
    standingTag (later ++ first :: earlier) = some tag
      ∧ ∀ r ∈ later, r.refused = true ↔ r.data ≠ [] ∧ r.etag ≠ some tag := by
  induction later with
  | nil => exact ⟨(standingTag_accepted hfirst earlier).trans htag, nofun⟩
  | cons last later ih =>
    rw [List.cons_append] at h ⊢
    obtain ⟨hlast, hchecked⟩ := h
    obtain ⟨hstanding, hothers⟩ := ih hchecked fun r hr => hempty r (List.mem_cons_of_mem last hr)
    have hrefused : last.refused = true ↔ last.data ≠ [] ∧ last.etag ≠ some tag := by
      rw [hlast, hstanding]
      refine and_congr_right fun _ => ⟨?_, fun hne => ⟨tag, rfl, hne⟩⟩
      rintro ⟨t, ht, hne⟩
      rw [ht]
      exact hne
    refine ⟨?_, ?_⟩
    · cases hr : last.refused with
      | true => exact (standingTag_refused hr _).trans hstanding
      | false =>
        refine (standingTag_accepted hr _).trans ?_
        -- an accepted answer has the tag, by the check or because it is empty
        by_cases hdata : last.data = []
        · exact hempty last List.mem_cons_self hdata
        · have hnot : ¬ (last.data ≠ [] ∧ last.etag ≠ some tag) := by
            rw [← hrefused, hr]
            exact Bool.false_ne_true
          exact Classical.not_not.mp fun hne => hnot ⟨hdata, hne⟩
    · intro r hr
      rcases List.mem_cons.mp hr with rfl | hr
      · exact hrefused
      · exact hothers r hr

/-- What was checked was checked all along. -/
theorem Checked.of_append {earlier later : List Receipt} (h : Checked (later ++ earlier)) :
    Checked earlier := by
  induction later with
  | nil => exact h
  | cons last later ih => exact ih h.2

/-- **An empty answer ends what was in force.** -/
theorem Checked.accepted_after_empty {r empty : Receipt} {earlier : List Receipt}
    (h : Checked (r :: empty :: earlier)) (hdata : empty.data = [])
    (htag : empty.etag = none ∨ empty.etag = r.etag) : r.refused = false := by
  obtain ⟨hr, hempty, -⟩ := h
  have haccepted : empty.refused = false := by
    rw [← Bool.not_eq_true, hempty]
    exact fun hrefused => hrefused.1 hdata
  rw [← Bool.not_eq_true, hr, standingTag_accepted haccepted]
  rintro ⟨-, tag, htaken, hother⟩
  rcases htag with hnone | hsame
  · rw [hnone] at htaken
    cases htaken
  · exact hother (hsame.symm.trans htaken)

namespace Channel

variable {σ : Type} {source : Source σ} {capacity : Nat} {c after : Channel}
variable {t t' : σ × List Receipt}

/-! ## What every operation keeps -/

/-- **A channel that remembers the tag in force**, with receipts that were
checked. -/
structure Remembers (c : Channel) (t : σ × List Receipt) : Prop where
  checked : Checked t.2
  lastEtag_eq : c.lastEtag = standingTag t.2

namespace Remembers

/-- An answer that is accepted puts its tag in force. -/
theorem accept {answer : Fetched} (h : c.Remembers t)
    (ha : c.answered source.receipted capacity t = (.ok answer, t'))
    (hclash : c.clashes answer.etag (answer.data.take (c.wanted capacity)) = false) :
    Checked t'.2 ∧ standingTag t'.2 = answer.etag := by
  rw [receipts_of_answer ha]
  refine ⟨⟨?_, h.checked⟩, standingTag_accepted rfl _⟩
  rw [← h.lastEtag_eq, ← clashes_iff, hclash]

/-- An answer that is refused leaves the tag as it is. -/
theorem refuse {answer : Fetched} (h : c.Remembers t)
    (ha : c.answered source.receipted capacity t = (.ok answer, t'))
    (hclash : c.clashes answer.etag (answer.data.take (c.wanted capacity)) = true) :
    Checked (refuseLast t'.2) ∧ standingTag (refuseLast t'.2) = c.lastEtag := by
  rw [receipts_of_answer ha]
  refine ⟨⟨?_, h.checked⟩, (standingTag_refused rfl _).trans h.lastEtag_eq.symm⟩
  rw [← h.lastEtag_eq, ← clashes_iff, hclash]

theorem readStep {d : Delivery} (h : c.Remembers t)
    (step : ReadStep source.receipted capacity c t d after t') : after.Remembers t' := by
  cases step with
  | served => exact ⟨h.checked, (lastEtag_passed c _).trans h.lastEtag_eq⟩
  | unanswered fault _ _ ha =>
    have hlog := receipts_of_fault ha
    exact ⟨hlog ▸ h.checked, hlog ▸ h.lastEtag_eq⟩
  | refused answer _ _ ha hclash =>
    obtain ⟨hchecked, hstanding⟩ := h.refuse ha hclash
    exact ⟨hchecked, hstanding.symm⟩
  | nothing answer _ _ ha hdata =>
    obtain ⟨hchecked, hstanding⟩ := h.accept ha (by rw [hdata]; simp [clashes])
    exact ⟨hchecked, hstanding.symm⟩
  | fetched answer _ filled _ ha hagrees _ hfilled =>
    obtain ⟨hchecked, hstanding⟩ := h.accept ha hagrees
    refine ⟨hchecked, ?_⟩
    rw [lastEtag_passed, hfilled]
    exact hstanding.symm
  | _ => exact ⟨h.checked, h.lastEtag_eq⟩

/-- **Every operation keeps the tag in force.** -/
theorem perform (h : c.Remembers t) (op : Operation) :
    (c.perform source.receipted op t).2.1.Remembers (c.perform source.receipted op t).2.2 :=
  perform_preserves (P := Remembers) (fun _ _ _ _ _ _ h step => h.readStep step)
    (fun _ _ h => ⟨h.checked, h.lastEtag_eq⟩) (fun _ _ _ _ => ⟨h.checked, h.lastEtag_eq⟩)
    (fun _ _ _ _ => ⟨h.checked, h.lastEtag_eq⟩) (fun _ _ => ⟨h.checked, h.lastEtag_eq⟩) h

theorem performAll (h : c.Remembers t) (ops : List Operation) :
    (performAll source.receipted ops c t).2.1.Remembers
      (performAll source.receipted ops c t).2.2 :=
  performAll_preserves (P := Remembers) (fun op _ _ h => h.perform op) ops h

end Remembers

/-! ## What a refusal does -/

/-- **What came of the answers to one operation**, told by its receipts. Either
all answers were accepted, or the last one was refused; then the operation
failed for that reason, and no byte is in the channel. -/
inductive Settled (Failed : Fault → Prop) (earlier : List Receipt) (after : Channel) :
    List Receipt → Prop where
  | accepted (new : List Receipt) (accepted : ∀ r ∈ new, r.refused = false) :
    Settled Failed earlier after (new ++ earlier)
  | refused (last : Receipt) (new : List Receipt) (refused : last.refused = true)
      (accepted : ∀ r ∈ new, r.refused = false)
      (failed : Failed (after.modified ⟨standingTag (new ++ earlier), last.etag⟩))
      (unread : after.unread = []) :
    Settled Failed earlier after (last :: new ++ earlier)

variable {Failed : Fault → Prop} {earlier log : List Receipt}

/-- Nothing was asked for. -/
theorem Settled.none : Settled Failed earlier after earlier := .accepted [] nofun

/-- Answers accepted before count in. -/
theorem Settled.append {new : List Receipt} (hnew : ∀ r ∈ new, r.refused = false)
    (h : Settled Failed (new ++ earlier) after log) : Settled Failed earlier after log := by
  cases h with
  | accepted more hmore =>
    rw [← List.append_assoc]
    refine .accepted _ fun r hr => ?_
    rcases List.mem_append.mp hr with hr | hr
    · exact hmore r hr
    · exact hnew r hr
  | refused last more hlast hmore hfailed hunread =>
    rw [← List.append_assoc] at hfailed
    rw [List.cons_append, ← List.append_assoc, ← List.cons_append]
    refine .refused last _ hlast (fun r hr => ?_) hfailed hunread
    rcases List.mem_append.mp hr with hr | hr
    · exact hmore r hr
    · exact hnew r hr

/-- A failure of another kind says as much. -/
theorem Settled.imp {Failed' : Fault → Prop} (himp : ∀ fault, Failed fault → Failed' fault)
    (h : Settled Failed earlier after log) : Settled Failed' earlier after log := by
  cases h with
  | accepted new hnew => exact .accepted new hnew
  | refused last new hlast hnew hfailed hunread =>
    exact .refused last new hlast hnew (himp _ hfailed) hunread

/-- **One read settles its answer.** -/
theorem settled_readStep {d : Delivery} (h : c.Remembers t)
    (step : ReadStep source.receipted capacity c t d after t') :
    Settled (fun fault => d = .failed fault) t.2 after t'.2 := by
  cases step with
  | unanswered fault _ _ ha =>
    rw [receipts_of_fault ha]
    exact .none
  | refused answer t' hw ha hclash =>
    show Settled _ t.2 _ (refuseLast t'.2)
    rw [receipts_of_answer ha]
    refine .refused _ [] rfl nofun ?_ hw.unread_eq
    rw [List.nil_append, ← h.lastEtag_eq]
    rfl
  | nothing answer _ _ ha =>
    rw [receipts_of_answer ha]
    exact .accepted [_] (by simp)
  | fetched answer _ _ _ ha =>
    rw [receipts_of_answer ha]
    exact .accepted [_] (by simp)
  | _ => exact .none

/-- A read that gives bytes, or the end, accepted what it was answered. -/
theorem accepted_of_readStep {d : Delivery} (h : c.Remembers t)
    (step : ReadStep source.receipted capacity c t d after t') (hd : ∀ fault, d ≠ .failed fault) :
    ∃ new, t'.2 = new ++ t.2 ∧ ∀ r ∈ new, r.refused = false := by
  have hsettled := settled_readStep h step
  generalize t'.2 = log at hsettled ⊢
  cases hsettled with
  | accepted new hnew => exact ⟨new, rfl, hnew⟩
  | refused _ _ _ _ hfailed _ => exact absurd hfailed (hd _)

theorem settled_fill (size : Nat) (before : List (List UInt8)) (c : Channel)
    (t : σ × List Receipt) (h : c.Remembers t) :
    Settled (fun fault => (c.fill source.receipted size before t).1 = .error fault) t.2
      (c.fill source.receipted size before t).2.1
      (c.fill source.receipted size before t).2.2.2 := by
  fun_induction fill source.receipted size before c t with
  | case1 size before c t hc data after t' hr _ ih =>
    -- a read that gave bytes refused nothing, so the rest of the loop decides
    obtain ⟨new, hnew, haccepted⟩ := accepted_of_readStep h (.of_eq hr) fun _ he => by cases he
    have hrest := ih (h.readStep (.of_eq hr))
    rw [hnew] at hrest
    exact hrest.append haccepted
  | case2 size before c t hc after t' hr =>
    obtain ⟨new, hnew, haccepted⟩ := accepted_of_readStep h (.of_eq hr) fun _ he => by cases he
    rw [hnew]
    exact .accepted new haccepted
  | case3 size before c t hc fault after t' hr =>
    refine (settled_readStep h (.of_eq hr)).imp fun fault hfault => ?_
    cases hfault
    rfl
  | case4 => exact .none

theorem settled_drain (capacity : Nat) (hc : 0 < capacity) (before : List (List UInt8))
    (c : Channel) (t : σ × List Receipt) (h : c.Remembers t) :
    Settled (fun fault => (c.drain source.receipted capacity hc before t).1 = .error fault) t.2
      (c.drain source.receipted capacity hc before t).2.1
      (c.drain source.receipted capacity hc before t).2.2.2 := by
  fun_induction drain source.receipted capacity hc before c t with
  | case1 before c t data after t' hr _ ih =>
    obtain ⟨new, hnew, haccepted⟩ := accepted_of_readStep h (.of_eq hr) fun _ he => by cases he
    have hrest := ih (h.readStep (.of_eq hr))
    rw [hnew] at hrest
    exact hrest.append haccepted
  | case2 before c t after t' hr =>
    obtain ⟨new, hnew, haccepted⟩ := accepted_of_readStep h (.of_eq hr) fun _ he => by cases he
    rw [hnew]
    exact .accepted new haccepted
  | case3 before c t fault after t' hr =>
    refine (settled_readStep h (.of_eq hr)).imp fun fault hfault => ?_
    cases hfault
    rfl

theorem settled_read (h : c.Remembers t) (size : Int) :
    Settled (fun fault => (c.read source.receipted size t).1 = .error fault) t.2
      (c.read source.receipted size t).2.1 (c.read source.receipted size t).2.2.2 := by
  unfold read
  split
  · exact .none
  · split
    · exact settled_drain _ _ [] c t h
    · exact settled_fill _ [] c t h

theorem Settled.close (h : Settled Failed earlier after log) :
    Settled Failed earlier after.close log := by
  unfold Channel.close
  split
  · cases h with
    | accepted new hnew => exact .accepted new hnew
    | refused last new hlast hnew hfailed _ => exact .refused last new hlast hnew hfailed rfl
  · exact h

/-- **Every operation settles its answers.** -/
theorem settled_perform (h : c.Remembers t) (op : Operation) :
    Settled (fun fault => (c.perform source.receipted op t).1 = .failed fault) t.2
      (c.perform source.receipted op t).2.1
      (c.perform source.receipted op t).2.2.2 := by
  have hdata {result : Except Fault (List UInt8)} (fault : Fault)
      (hresult : result = .error fault) :
      Outcome.ofResult .data result = .failed fault := congrArg (Outcome.ofResult .data) hresult
  cases op with
  | readInto capacity =>
    rw [perform_readInto]
    refine (settled_readStep h (readInto_step source.receipted capacity c t)).imp fun _ hd => ?_
    exact congrArg Outcome.ofDelivery hd
  | read size => exact (settled_read h size).imp hdata
  | readAndClose size => exact (settled_read h size).close.imp hdata
  | seek target =>
    rw [perform_seek]
    unfold seek
    split <;> exact .none
  | setLimit target =>
    rw [perform_setLimit]
    cases c.setLimit target <;> exact .none
  | setChunkSize n => exact .none
  | tell => exact .none
  | close => exact .none

end Channel

/-! ## The theorem -/

/-- **The tags of a run.** Whatever the source answers to a channel just
opened, and however the channel is used:

* receipts change no outcome;
* an answer is refused where it has bytes and another tag than the one in
  force, and nowhere else;
* the tag of an accepted answer is enforced on all later ones, as long as the
  empty ones among them have it too;
* an empty answer ends what was in force before: after it, an answer of its own
  tag is accepted, and any answer if it has none;
* every operation that comes next settles its answers. -/
theorem tags_enforced {σ : Type} (source : Source σ) {object : ObjectId}
    {options : List ReadOption} {c after : Channel} (hc : Channel.opened object options = .ok c)
    (ops : List Operation) (s s' : σ) (outcomes : List Outcome) (receipts : List Receipt)
    (hrun : Channel.performAll source.receipted ops c (s, []) = (outcomes, after, s', receipts)) :
    Channel.performAll source ops c s = (outcomes, after, s')
      ∧ Checked receipts
      ∧ (∀ (later : List Receipt) (first : Receipt) (earlier : List Receipt) (tag : String),
        receipts = later ++ first :: earlier → first.refused = false → first.etag = some tag →
          (∀ r ∈ later, r.data = [] → r.etag = some tag) →
            ∀ r ∈ later, r.refused = true ↔ r.data ≠ [] ∧ r.etag ≠ some tag)
      ∧ (∀ (later : List Receipt) (r empty : Receipt) (earlier : List Receipt),
        receipts = later ++ r :: empty :: earlier → empty.data = [] →
          (empty.etag = none ∨ empty.etag = r.etag) → r.refused = false)
      ∧ ∀ op, Channel.Settled
        (fun fault => (after.perform source.receipted op (s', receipts)).1 = .failed fault) receipts
        (after.perform source.receipted op (s', receipts)).2.1
        (after.perform source.receipted op (s', receipts)).2.2.2 := by
  have hfresh : c.Remembers (s, ([] : List Receipt)) :=
    ⟨trivial, (Channel.isFresh_of_opened hc).lastEtag_eq⟩
  have hkept : (Channel.performAll source.receipted ops c (s, [])).2.1.Remembers
      (Channel.performAll source.receipted ops c (s, [])).2.2 := hfresh.performAll ops
  rw [hrun] at hkept
  refine ⟨?_, hkept.checked, ?_, ?_, fun op => Channel.settled_perform hkept op⟩
  · have hseen := Channel.performAll_seen source.sees_receipted ops c (s, [])
    rw [hrun] at hseen
    exact hseen
  · intro later first earlier tag hsplit hfirst htag hempty
    have hchecked := hkept.checked
    rw [hsplit] at hchecked
    exact (hchecked.standingTag_eq hfirst htag hempty).2
  · intro later r empty earlier hsplit hdata htag
    have hchecked := hkept.checked
    rw [hsplit] at hchecked
    exact hchecked.of_append.accepted_after_empty hdata htag

/-- **What one would expect of tags**: that of an accepted answer with bytes is
that of all later ones. -/
def KeepsTag (receipts : List Receipt) : Prop :=
  ∀ (later : List Receipt) (first : Receipt) (earlier : List Receipt) (tag : String),
    receipts = later ++ first :: earlier → first.data ≠ [] → first.refused = false →
      first.etag = some tag → ∀ r ∈ later, r.data ≠ [] → r.refused = false → r.etag = some tag

/-- A source that gives the answers it is made of, and nothing after them. -/
def Source.scripted : Source (List Fetched) where
  fetch _ answers :=
    match answers with
    | [] => (.ok ⟨none, []⟩, [])
    | answer :: answers => (.ok answer, answers)
  note _ answers := answers

/-- The letters A to D, and other content in their place. -/
def sampleChange : List Fetched := [⟨some "v1", [65, 66, 67, 68]⟩, ⟨some "v2", [87, 88, 89, 90]⟩]

theorem tags_enforced_sample :
    ∃ c after outcomes receipts, Channel.opened sampleId [] = .ok c
      ∧ Channel.performAll Source.scripted.receipted [.setChunkSize 4, .readInto 4, .readInto 4] c
          (sampleChange, []) = (outcomes, after, [], receipts)
      ∧ receipts = [⟨some "v2", [87, 88, 89, 90], true⟩, ⟨some "v1", [65, 66, 67, 68], false⟩]
      ∧ Checked receipts
      ∧ (∀ r ∈ [(⟨some "v2", [87, 88, 89, 90], true⟩ : Receipt)],
        r.refused = true ↔ r.data ≠ [] ∧ r.etag ≠ some "v1")
      ∧ Channel.Settled
        (fun fault => (after.perform Source.scripted.receipted (.readInto 4) ([], receipts)).1
          = .failed fault) receipts
        (after.perform Source.scripted.receipted (.readInto 4) ([], receipts)).2.1
        (after.perform Source.scripted.receipted (.readInto 4) ([], receipts)).2.2.2 := by
  refine ⟨_, _, _, _, rfl, rfl, rfl, ?_⟩
  obtain ⟨-, hchecked, henforced, -, hsettled⟩ := tags_enforced Source.scripted
    (rfl : Channel.opened sampleId [] = .ok _) [.setChunkSize 4, .readInto 4, .readInto 4]
    sampleChange [] _ _ rfl
  exact ⟨hchecked, henforced _ ⟨some "v1", [65, 66, 67, 68], false⟩ [] "v1" rfl rfl rfl (by simp),
    hsettled (.readInto 4)⟩

/-- **The first tag is not kept.** The content is replaced, the channel reads
past its end, gets an empty answer without a tag, goes back and gives bytes of
the new content. -/
theorem tags_not_kept :
    ∃ c, Channel.opened sampleId [] = .ok c
      ∧ ¬ KeepsTag (Channel.performAll Source.scripted.receipted
        [.readInto 2, .seek (.int 10), .readInto 1, .seek (.int 2), .readInto 2] c
        ([⟨some "v1", [65, 66, 67, 68]⟩, ⟨none, []⟩, ⟨some "v2", [89, 90]⟩], [])).2.2.2 := by
  refine ⟨_, rfl, fun hkept => ?_⟩
  have hlast := hkept [⟨some "v2", [89, 90], false⟩, ⟨none, [], false⟩]
    ⟨some "v1", [65, 66, 67, 68], false⟩ [] "v1" rfl (by decide) rfl rfl
    ⟨some "v2", [89, 90], false⟩ (by simp) (by decide) rfl
  exact absurd hlast (by decide)

end RangeReader

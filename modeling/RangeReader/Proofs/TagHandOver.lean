import RangeReader.Proofs.Echo
import RangeReader.Proofs.TagConsistency

/-!
# Tags survive handing over

A run that seeks can lose the tag that it started with: an answer without bytes
takes its place. A run without a seek cannot. An empty answer ends it – the
channel has no chunk and has reached the end, and only a seek would make it
fetch again – so of the answers that were ever given to it the last one alone
can be empty. Handing over keeps that. The new channel has the tag of the old
one, and where the old one had ended without a chunk, so has the new one.
`Chained` is what stays true along a chain of channels.

The bytes of an outcome are not marked with the answers they came from, so
`Drawn` tells bytes by where they can have come from: one answer after the
other gives pieces of its data. An operation draws from the answers that it gets
itself and from the last one before, whose chunk may still be there
(`drawn_perform`).
-/

namespace RangeReader

/-- The bytes that an outcome gives. -/
def Outcome.bytes : Outcome → List UInt8
  | .delivered d => d.written
  | .data bytes => bytes
  | _ => []

/-! ## Bytes and the answers they are from -/

/-- **Bytes drawn from answers**, in the order of the answers, of which the last
one comes first. An answer that was refused gives none. -/
inductive Drawn : List Receipt → List UInt8 → Prop where
  | nil : Drawn [] []
  | skip (last : Receipt) {earlier : List Receipt} {bytes : List UInt8}
      (drawn : Drawn earlier bytes) : Drawn (last :: earlier) bytes
  | take {last : Receipt} {earlier : List Receipt} {bytes piece : List UInt8}
      (drawn : Drawn (last :: earlier) bytes) (accepted : last.refused = false)
      (part : piece <:+: last.data) : Drawn (last :: earlier) (bytes ++ piece)

namespace Drawn

variable {later earlier : List Receipt} {bytes : List UInt8}

theorem none (receipts : List Receipt) : Drawn receipts [] := by
  induction receipts with
  | nil => exact .nil
  | cons last earlier ih => exact .skip last ih

theorem eq_nil (h : Drawn [] bytes) : bytes = [] := by
  cases h
  rfl

/-- More answers are no hindrance: earlier ones. -/
theorem append_right (h : Drawn later bytes) (earlier : List Receipt) :
    Drawn (later ++ earlier) bytes := by
  induction h with
  | nil => exact none earlier
  | skip last _ ih => exact .skip last ih
  | take _ accepted part ih => exact .take ih accepted part

/-- **Bytes from one list of answers and another** are those from the earlier
ones and those from the later ones. -/
theorem split (h : Drawn (later ++ earlier) bytes) :
    ∃ early late, bytes = early ++ late ∧ Drawn earlier early ∧ Drawn later late := by
  generalize hall : later ++ earlier = all at h
  induction h generalizing later with
  | nil =>
    obtain ⟨rfl, rfl⟩ := List.append_eq_nil_iff.mp hall
    exact ⟨[], [], rfl, .nil, .nil⟩
  | @skip last others bytes drawn ih =>
    cases later with
    | nil =>
      cases hall
      exact ⟨bytes, [], (List.append_nil bytes).symm, .skip last drawn, .nil⟩
    | cons first later =>
      cases hall
      obtain ⟨early, late, hbytes, hearly, hlate⟩ := ih rfl
      exact ⟨early, late, hbytes, hearly, .skip _ hlate⟩
  | @take last others bytes piece drawn accepted part ih =>
    obtain ⟨early, late, rfl, hearly, hlate⟩ := ih hall
    cases later with
    | nil =>
      cases hall
      rw [hlate.eq_nil, List.append_nil]
      exact ⟨early ++ piece, [], (List.append_nil _).symm, .take hearly accepted part, .nil⟩
    | cons first later =>
      cases hall
      exact ⟨early, late ++ piece, List.append_assoc _ _ _, hearly, .take hlate accepted part⟩

/-- **Bytes drawn one time after another**: the second time from new answers and
the last one before. -/
theorem append {first second : List UInt8} (hfirst : Drawn earlier first)
    (hsecond : Drawn (later ++ earlier.take 1) second) :
    Drawn (later ++ earlier) (first ++ second) := by
  cases earlier with
  | nil =>
    rw [hfirst.eq_nil]
    exact hsecond
  | cons last earlier =>
    replace hsecond : Drawn (later ++ [last]) second := hsecond
    generalize hall : later ++ [last] = all at hsecond
    induction hsecond generalizing later with
    | nil => exact absurd hall (by simp)
    | @skip head others bytes drawn ih =>
      cases later with
      | nil =>
        cases hall
        rw [drawn.eq_nil, List.append_nil]
        exact hfirst
      | cons head later =>
        cases hall
        exact .skip head (ih rfl)
    | @take head others bytes piece drawn accepted part ih =>
      have hboth := ih hall
      rw [← List.append_assoc]
      cases later with
      | nil =>
        cases hall
        exact .take hboth accepted part
      | cons head later =>
        cases hall
        exact .take hboth accepted part

/-- Answers that gave nothing can be left out. -/
theorem filter {keep : Receipt → Bool} (h : Drawn later bytes)
    (hkeep : ∀ r ∈ later, r.data ≠ [] → r.refused = false → keep r = true) :
    Drawn (later.filter keep) bytes := by
  induction h with
  | nil => exact .nil
  | @skip last earlier bytes _ ih =>
    have hrest := ih fun r hr => hkeep r (List.mem_cons_of_mem last hr)
    rw [List.filter_cons]
    split
    · exact .skip last hrest
    · exact hrest
  | @take last earlier bytes piece _ accepted part ih =>
    have hrest := ih hkeep
    by_cases hdata : last.data = []
    · rw [hdata, List.infix_nil] at part
      rw [part, List.append_nil]
      exact hrest
    · rw [List.filter_cons, if_pos (hkeep last List.mem_cons_self hdata accepted)] at hrest ⊢
      exact .take hrest accepted part

end Drawn

/-! ## What one channel keeps -/

namespace Channel

variable {σ : Type} {source : Source σ} {capacity : Nat} {c c' after : Channel}
variable {t t' : σ × List Receipt}

/-- **A channel of a chain without a seek**, with the receipts of all answers to
the chain. It remembers the tag in force; what it has unread is of the last
answer; and an empty answer ended the chain, so that none came after. -/
structure Chained (c : Channel) (t : σ × List Receipt) : Prop where
  remembers : c.Remembers t
  unread_of_last : c.unread ≠ [] → ∃ last earlier, t.2 = last :: earlier
    ∧ last.refused = false ∧ c.unread <:+ last.data
  ended_of_empty : ∀ r ∈ t.2, r.data = [] → c.ended = true ∧ c.unread = []
  data_ne : ∀ r ∈ t.2.tail, r.data ≠ []

namespace Chained

/-- Before a fetch no answer was empty. -/
theorem data_ne_of_fetches (h : c.Chained t) (hf : c.Fetches capacity) :
    ∀ r ∈ t.2, r.data ≠ [] := by
  intro r hr hdata
  have hended := (h.ended_of_empty r hr hdata).1
  rw [hf.not_ended] at hended
  cases hended

/-- **One read keeps the chain.** -/
theorem readStep {d : Delivery} (h : c.Chained t)
    (step : ReadStep source.receipted capacity c t d after t') : after.Chained t' := by
  have hremembers := h.remembers.readStep step
  cases step with
  | cutOff _ hu _ =>
    exact ⟨hremembers, fun hne => absurd rfl hne, fun r hr hdata => ⟨rfl, rfl⟩, h.data_ne⟩
  | served _ hu _ =>
    refine ⟨hremembers, fun _ => ?_, fun r hr hdata => ?_, h.data_ne⟩
    · obtain ⟨last, earlier, hlog, haccepted, hsuffix⟩ := h.unread_of_last hu
      refine ⟨last, earlier, hlog, haccepted, ?_⟩
      rw [unread_passed]
      exact (List.drop_suffix _ _).trans hsuffix
    · exact absurd (h.ended_of_empty r hr hdata).2 hu
  | bounded _ hu =>
    exact ⟨hremembers, h.unread_of_last, fun r hr hdata => ⟨rfl, hu⟩, h.data_ne⟩
  | unanswered fault _ hf ha =>
    have hlog := receipts_of_fault ha
    refine ⟨hremembers, ?_, ?_, ?_⟩
    · rw [hlog]
      exact h.unread_of_last
    · rw [hlog]
      exact h.ended_of_empty
    · rw [hlog]
      exact h.data_ne
  | refused answer s' hf ha hclash =>
    have hlog : (source.receipted.note (.modified c.object.text c.lastEtag answer.etag) s').2
        = ⟨answer.etag, answer.data.take (c.wanted capacity), true⟩ :: t.2 := by
      show refuseLast s'.2 = _
      rw [receipts_of_answer ha]
      rfl
    have hdata := ((clashes_iff c _ _).mp hclash).1
    refine ⟨hremembers, fun hne => absurd hf.unread_eq hne, ?_, ?_⟩
    · rw [hlog]
      intro r hr hnil
      rcases List.mem_cons.mp hr with rfl | hr
      · exact absurd hnil hdata
      · exact absurd hnil (h.data_ne_of_fetches hf r hr)
    · rw [hlog]
      exact h.data_ne_of_fetches hf
  | nothing answer _ hf ha =>
    have hlog := receipts_of_answer ha
    have hended : decide (([] : List UInt8).length < c.wanted capacity) = true :=
      decide_eq_true hf.wanted_pos
    refine ⟨hremembers, fun hne => absurd rfl hne, fun r hr hdata => ⟨hended, rfl⟩, ?_⟩
    rw [hlog]
    exact h.data_ne_of_fetches hf
  | fetched answer _ filled hf ha _ hdata hfilled =>
    have hlog := receipts_of_answer ha
    refine ⟨hremembers, fun _ => ⟨_, _, hlog, rfl, ?_⟩, ?_, ?_⟩
    · rw [unread_passed, hfilled]
      exact List.drop_suffix _ _
    · rw [hlog]
      intro r hr hnil
      rcases List.mem_cons.mp hr with rfl | hr
      · exact absurd hnil hdata
      · exact absurd hnil (h.data_ne_of_fetches hf r hr)
    · rw [hlog]
      exact h.data_ne_of_fetches hf
  | _ => exact ⟨hremembers, h.unread_of_last, h.ended_of_empty, h.data_ne⟩

/-- **Every operation but a move keeps the chain.** -/
theorem perform {op : Operation} (hop : ∀ target, op ≠ .seek target) (h : c.Chained t) :
    (c.perform source.receipted op t).2.1.Chained (c.perform source.receipted op t).2.2 := by
  refine perform_preserves (P := Chained) (fun _ _ _ _ _ _ h step => h.readStep step) ?_
    (fun target _ hseek _ => absurd hseek (hop target)) ?_ ?_ h
  · intro c t h
    exact ⟨⟨h.remembers.checked, h.remembers.lastEtag_eq⟩, fun hne => absurd rfl hne,
      fun r hr hdata => ⟨(h.ended_of_empty r hr hdata).1, rfl⟩, h.data_ne⟩
  · intro _ _ _ _
    exact ⟨⟨h.remembers.checked, h.remembers.lastEtag_eq⟩, h.unread_of_last, h.ended_of_empty,
      h.data_ne⟩
  · intro _ _
    exact ⟨⟨h.remembers.checked, h.remembers.lastEtag_eq⟩, h.unread_of_last, h.ended_of_empty,
      h.data_ne⟩

/-- **Handing over keeps the chain.** -/
theorem takesUp (h : c.Chained t) (hover : c.TakesUp c') : c'.Chained t where
  remembers := ⟨h.remembers.checked, hover.lastEtag_eq.trans h.remembers.lastEtag_eq⟩
  unread_of_last hne := absurd hover.unread_eq hne
  ended_of_empty r hr hdata := by
    obtain ⟨hended, hunread⟩ := h.ended_of_empty r hr hdata
    refine ⟨?_, hover.unread_eq⟩
    rw [hover.ended_eq, hended, hunread]
    rfl
  data_ne := h.data_ne

end Chained

/-! ## Where the bytes of an operation are from -/

/-- **Bytes drawn since some receipts**: from the answers that came after, and
from the last one before. -/
def DrawnSince (earlier receipts : List Receipt) (bytes : List UInt8) : Prop :=
  ∃ new, receipts = new ++ earlier ∧ Drawn (new ++ earlier.take 1) bytes

theorem drawnSince_nil (receipts : List Receipt) : DrawnSince receipts receipts [] :=
  ⟨[], rfl, .none _⟩

/-- Bytes drawn in two steps. -/
theorem DrawnSince.trans {first second third : List Receipt} {bytes more : List UInt8}
    (h : DrawnSince first second bytes) (h' : DrawnSince second third more) :
    DrawnSince first third (bytes ++ more) := by
  obtain ⟨new, rfl, hbytes⟩ := h
  obtain ⟨new', rfl, hmore⟩ := h'
  refine ⟨new' ++ new, (List.append_assoc _ _ _).symm, ?_⟩
  have hlast : (new ++ first).take 1 = (new ++ first.take 1).take 1 := by
    cases new with
    | nil => cases first <;> rfl
    | cons last new => rfl
  rw [hlast] at hmore
  rw [List.append_assoc]
  exact hbytes.append hmore

/-- The bytes of the last answer. -/
theorem drawn_last {last : Receipt} (haccepted : last.refused = false) {piece : List UInt8}
    (hpart : piece <:+: last.data) (earlier : List Receipt) : Drawn (last :: earlier) piece := by
  show Drawn (last :: earlier) ([] ++ piece)
  exact .take (.none _) haccepted hpart

/-- **A read gives bytes of the last answer.** -/
theorem drawn_readStep {d : Delivery} (h : c.Chained t)
    (step : ReadStep source.receipted capacity c t d after t') :
    DrawnSince t.2 t'.2 d.written := by
  cases step with
  | served _ hu _ =>
    obtain ⟨last, earlier, hlog, haccepted, hsuffix⟩ := h.unread_of_last hu
    refine ⟨[], rfl, ?_⟩
    rw [hlog]
    exact drawn_last haccepted ((List.take_prefix _ _).isInfix.trans hsuffix.isInfix) []
  | unanswered fault _ _ ha =>
    rw [receipts_of_fault ha]
    exact drawnSince_nil _
  | refused answer s' _ ha =>
    refine ⟨[⟨answer.etag, answer.data.take (c.wanted capacity), true⟩], ?_, .none _⟩
    show refuseLast s'.2 = _
    rw [receipts_of_answer ha]
    rfl
  | nothing answer _ _ ha => exact ⟨[_], receipts_of_answer ha, .none _⟩
  | fetched answer _ filled _ ha _ _ hfilled =>
    refine ⟨[_], receipts_of_answer ha, ?_⟩
    rw [hfilled]
    exact drawn_last rfl (List.take_prefix _ _).isInfix _
  | _ => exact drawnSince_nil _

/-- What a loop that collects pieces has drawn, if it succeeds. -/
def Collects (earlier receipts : List Receipt) (before : List (List UInt8)) :
    Except Fault (List UInt8) → Prop
  | .ok data => ∃ bytes, data = before.reverse.flatten ++ bytes ∧ DrawnSince earlier receipts bytes
  | .error _ => DrawnSince earlier receipts []

/-- A piece more. -/
theorem Collects.cons {first second third : List Receipt} {before : List (List UInt8)}
    {piece : List UInt8} {result : Except Fault (List UInt8)}
    (hpiece : DrawnSince first second piece)
    (h : Collects second third (piece :: before) result) : Collects first third before result := by
  cases result with
  | ok data =>
    obtain ⟨bytes, rfl, hbytes⟩ := h
    refine ⟨piece ++ bytes, ?_, hpiece.trans hbytes⟩
    rw [List.reverse_cons, List.flatten_append, List.append_assoc, List.flatten_singleton]
  | error fault =>
    obtain ⟨new, hnew, -⟩ := hpiece
    obtain ⟨new', hnew', -⟩ := (show DrawnSince second third [] from h)
    exact ⟨new' ++ new, by rw [hnew', hnew, List.append_assoc], .none _⟩

/-- Nothing more. -/
theorem collects_of_drawnSince {earlier receipts : List Receipt} (before : List (List UInt8))
    (h : DrawnSince earlier receipts []) :
    Collects earlier receipts before (.ok before.reverse.flatten) :=
  ⟨[], (List.append_nil _).symm, h⟩

theorem collects_fill (size : Nat) (before : List (List UInt8)) (h : c.Chained t) :
    Collects t.2 (c.fill source.receipted size before t).2.2.2 before
      (c.fill source.receipted size before t).1 := by
  fun_induction fill source.receipted size before c t with
  | case1 size before c t hc data after t' hr _ ih =>
    exact .cons (drawn_readStep h (.of_eq hr)) (ih (h.readStep (.of_eq hr)))
  | case2 size before c t hc after t' hr =>
    exact collects_of_drawnSince before (drawn_readStep h (.of_eq hr))
  | case3 size before c t hc fault after t' hr => exact drawn_readStep h (.of_eq hr)
  | case4 size before c t hc => exact collects_of_drawnSince before (drawnSince_nil _)

theorem collects_drain (capacity : Nat) (hc : 0 < capacity) (before : List (List UInt8))
    (h : c.Chained t) :
    Collects t.2 (c.drain source.receipted capacity hc before t).2.2.2 before
      (c.drain source.receipted capacity hc before t).1 := by
  fun_induction drain source.receipted capacity hc before c t with
  | case1 before c t data after t' hr _ ih =>
    exact .cons (drawn_readStep h (.of_eq hr)) (ih (h.readStep (.of_eq hr)))
  | case2 before c t after t' hr =>
    exact collects_of_drawnSince before (drawn_readStep h (.of_eq hr))
  | case3 before c t fault after t' hr => exact drawn_readStep h (.of_eq hr)

theorem drawn_read (size : Int) (h : c.Chained t) :
    DrawnSince t.2 (c.read source.receipted size t).2.2.2
      (Outcome.ofResult .data (c.read source.receipted size t).1).bytes := by
  have hloop {receipts : List Receipt} {result : Except Fault (List UInt8)}
      (hresult : Collects t.2 receipts [] result) :
      DrawnSince t.2 receipts (Outcome.ofResult .data result).bytes := by
    cases result with
    | ok data =>
      obtain ⟨bytes, rfl, hbytes⟩ := hresult
      exact hbytes
    | error fault => exact hresult
  unfold read
  split
  · exact drawnSince_nil _
  · split
    · exact hloop (collects_drain _ _ [] h)
    · exact hloop (collects_fill _ [] h)

/-- **An operation gives bytes of the answers to it and of the last one
before.** -/
theorem drawn_perform {op : Operation} (hop : ∀ target, op ≠ .seek target) (h : c.Chained t) :
    DrawnSince t.2 (c.perform source.receipted op t).2.2.2
      (c.perform source.receipted op t).1.bytes := by
  cases op with
  | readInto capacity =>
    have hdrawn := drawn_readStep h (readInto_step source.receipted capacity c t)
    rw [perform_readInto]
    revert hdrawn
    cases (c.readInto source.receipted capacity t).1 <;> exact id
  | read size => exact drawn_read size h
  | readAndClose size => exact drawn_read size h
  | seek target => exact absurd rfl (hop target)
  | setLimit target =>
    rw [perform_setLimit]
    cases c.setLimit target <;> exact drawnSince_nil _
  | tell =>
    show DrawnSince t.2 t.2 (Outcome.ofResult .offset c.tell).bytes
    cases c.tell <;> exact drawnSince_nil _
  | _ => exact drawnSince_nil _

end Channel

/-! ## Chains -/

namespace Move

variable {σ : Type}

/-- A move without a seek. -/
def SeekFree : Move σ → Prop
  | .operate op => ∀ target, op ≠ .seek target
  | .handOver _ => True

/-- A move over sources that keep receipts. -/
def receipted : Move σ → Move (σ × List Receipt)
  | .operate op => .operate op
  | .handOver source => .handOver source.receipted

end Move

namespace Channel

variable {σ : Type} {source : Source σ} {c c' : Channel} {t t' : σ × List Receipt}
variable {moves : List (Move σ)} {outcomes : List Outcome}

/-- **Receipts change nothing in a chain.** -/
theorem performMoves_receipted [Nesting]
    (h : performMoves source.receipted (moves.map Move.receipted) c t
      = .ok (outcomes, c', t')) :
    performMoves source moves c t.1 = .ok (outcomes, c', t'.1) := by
  have hover : (Move.receipted : Move σ → _) = Move.over Source.receipted := by
    funext move
    cases move <;> rfl
  rw [performMoves_seen Source.sees_receipted, ← hover, h]
  rfl

/-- **A chain without a seek stays one**, and its bytes are of the answers to it
and of the last one before. -/
theorem Chained.performMoves [Nesting] (hc : c.Chained t) (hmoves : ∀ move ∈ moves, move.SeekFree)
    (h : Channel.performMoves source.receipted (moves.map Move.receipted) c t
      = .ok (outcomes, c', t')) :
    c'.Chained t' ∧ DrawnSince t.2 t'.2 (outcomes.flatMap Outcome.bytes) := by
  induction moves generalizing source c t outcomes with
  | nil =>
    cases h
    exact ⟨hc, drawnSince_nil _⟩
  | cons move moves ih =>
    have hrest := fun m hm => hmoves m (List.mem_cons_of_mem move hm)
    cases move with
    | operate op =>
      have hop : ∀ target, op ≠ .seek target := hmoves (.operate op) List.mem_cons_self
      rw [List.map_cons, Move.receipted, performMoves_operate] at h
      obtain ⟨⟨later, after, s⟩, hrun, h⟩ := eq_ok_of_bind h
      cases h
      obtain ⟨hchained, hdrawn⟩ := ih (hc.perform hop) hrest hrun
      exact ⟨hchained, (drawn_perform hop hc).trans hdrawn⟩
    | handOver next =>
      rw [List.map_cons, Move.receipted, performMoves_handOver] at h
      obtain ⟨taken, hover, hrun⟩ := eq_ok_of_bind h
      exact ih (hc.takesUp (takesUp_of_handedOver hover)) hrest hrun

/-- A channel just opened starts a chain. -/
theorem chained_opened {object : ObjectId} {options : List ReadOption}
    (hc : Channel.opened object options = .ok c) (s : σ) : c.Chained (s, []) where
  remembers := ⟨trivial, (isFresh_of_opened hc).lastEtag_eq⟩
  unread_of_last hne := absurd (isFresh_of_opened hc).unread_eq hne
  ended_of_empty := nofun
  data_ne := nofun

end Channel

/-- **Where only the last answer is empty, a tag is kept.** -/
theorem keepsTag_of_checked {receipts : List Receipt} (h : Checked receipts)
    (hdata : ∀ r ∈ receipts.tail, r.data ≠ []) : KeepsTag receipts := by
  rintro later first earlier tag rfl hfirst haccepted htag r hr hne hr_accepted
  cases later with
  | nil => cases hr
  | cons last later =>
    rw [List.cons_append] at h
    obtain ⟨hlast, hchecked⟩ := h
    -- no answer but the last is empty, so the tag was in force when it came
    have hempty : ∀ r ∈ later, r.data = [] → r.etag = some tag := fun r hr hnil =>
      absurd hnil (hdata r (List.mem_append_left _ hr))
    obtain ⟨hstanding, hlater⟩ := hchecked.standingTag_eq haccepted htag hempty
    have htaken {r : Receipt} (hrefused : r.refused = true ↔ r.data ≠ [] ∧ r.etag ≠ some tag)
        (hne : r.data ≠ []) (hr : r.refused = false) : r.etag = some tag := by
      rw [← Bool.not_eq_true, hrefused] at hr
      exact Classical.not_not.mp fun hother => hr ⟨hne, hother⟩
    rcases List.mem_cons.mp hr with rfl | hr
    · refine htaken (hlast.trans (and_congr_right fun _ => ?_)) hne hr_accepted
      rw [hstanding]
      simp
    · exact htaken (hlater r hr) hne hr_accepted

/-! ## The theorem -/

/-- **The tag of an answer survives handing over.** Take a channel just opened,
and whatever is done with it short of a seek, over any source, with a channel
over any other source put in its place at any time. The state is that of all
the sources together. Then go on in the same way; the sources of the second
part need not be those of the first. If every hand-over succeeds,

* receipts change nothing;
* every answer was checked, and the tag of any accepted answer with bytes is
  that of all later ones that have bytes and were accepted;
* the bytes that the second part gives are, first, some of answers before that
  one, and then only of answers with its tag. If that one came in the first
  part, there is nothing from before it. -/
theorem tags_survive_hand_over [Nesting] {σ : Type} (source source' : Source σ) {object : ObjectId}
    {options : List ReadOption} {fresh : Channel}
    (hc : Channel.opened object options = .ok fresh) (moves more : List (Move σ))
    (hmoves : ∀ move ∈ moves ++ more, move.SeekFree) (s : σ) {outcomes outcomes' : List Outcome}
    {c c' : Channel} {t t' : σ × List Receipt}
    (hrun : Channel.performMoves source.receipted (moves.map Move.receipted) fresh (s, [])
      = .ok (outcomes, c, t))
    (hmore : Channel.performMoves source'.receipted (more.map Move.receipted) c t
      = .ok (outcomes', c', t')) :
    Channel.performMoves source moves fresh s = .ok (outcomes, c, t.1)
      ∧ Channel.performMoves source' more c t.1 = .ok (outcomes', c', t'.1)
      ∧ Checked t'.2 ∧ KeepsTag t'.2
      ∧ ∀ (later : List Receipt) (first : Receipt) (earlier : List Receipt) (tag : String),
        t'.2 = later ++ first :: earlier → first.data ≠ [] → first.refused = false →
          first.etag = some tag →
            ∃ early late, outcomes'.flatMap Outcome.bytes = early ++ late
              ∧ Drawn earlier early
              ∧ Drawn ((later ++ [first]).filter fun r => r.etag = some tag) late
              ∧ (earlier.length < t.2.length → early = []) := by
  obtain ⟨hfirst, -⟩ := (Channel.chained_opened hc s).performMoves
    (fun m hm => hmoves m (List.mem_append_left _ hm)) hrun
  obtain ⟨hchained, new, hnew, hdrawn⟩ := hfirst.performMoves
    (fun m hm => hmoves m (List.mem_append_right _ hm)) hmore
  have hkeeps := keepsTag_of_checked hchained.remembers.checked hchained.data_ne
  refine ⟨Channel.performMoves_receipted hrun, Channel.performMoves_receipted hmore,
    hchained.remembers.checked, hkeeps, ?_⟩
  intro later first earlier tag hsplit hdata haccepted htag
  -- bytes of these answers are of those with the tag
  have hfilter {late : List UInt8} (hlate : Drawn (later ++ [first]) late) :
      Drawn ((later ++ [first]).filter fun r => r.etag = some tag) late := by
    refine hlate.filter fun r hr hne hr_accepted => decide_eq_true ?_
    rcases List.mem_append.mp hr with hr | hr
    · exact hkeeps later first earlier tag hsplit hdata haccepted htag r hr hne hr_accepted
    · rw [List.mem_singleton.mp hr]
      exact htag
  have hall : (later ++ [first]) ++ earlier = new ++ t.2 := by
    rw [List.append_assoc, ← hnew, hsplit]
    rfl
  by_cases hlength : earlier.length < t.2.length
  · -- the answer came before the second part, which draws on nothing earlier
    have hnewest : new ++ t.2.take 1 <+: new ++ t.2 :=
      (List.prefix_append_right_inj new).mpr (List.take_prefix 1 t.2)
    have hlater : later ++ [first] <+: new ++ t.2 := by
      rw [← hall]
      exact List.prefix_append _ _
    have hle : (new ++ t.2.take 1).length ≤ (later ++ [first]).length := by
      have hlengths := congrArg List.length hall
      simp only [List.length_append, List.length_singleton, List.length_take] at hlengths ⊢
      omega
    obtain ⟨others, hothers⟩ := List.prefix_of_prefix_length_le hnewest hlater hle
    refine ⟨[], _, rfl, .none earlier, hfilter ?_, fun _ => rfl⟩
    rw [← hothers]
    exact hdrawn.append_right others
  · have hwhole : Drawn ((later ++ [first]) ++ earlier) (outcomes'.flatMap Outcome.bytes) := by
      rw [hall, ← List.take_append_drop 1 t.2, ← List.append_assoc]
      exact hdrawn.append_right _
    obtain ⟨early, late, hbytes, hearly, hlate⟩ := hwhole.split
    exact ⟨early, late, hbytes, hearly, hfilter hlate, fun h => absurd h hlength⟩

/-- The letters A to D, those from C to F, and other content. -/
def sampleChain : List Fetched :=
  [⟨some "v1", [65, 66, 67, 68]⟩, ⟨some "v1", [67, 68, 69, 70]⟩, ⟨some "v2", [87, 88, 89, 90]⟩]

/-- Two letters, and another channel. -/
def sampleFirst : List (Move (List Fetched)) :=
  [.operate (.setChunkSize 4), .operate (.readInto 2), .handOver Source.scripted]

/-- Four letters, another channel, and a read that is refused. -/
def sampleSecond : List (Move (List Fetched)) :=
  [.operate (.readInto 4), .handOver Source.scripted, .operate (.readInto 4)]

/-- A channel on the sample object is handed over. -/
theorem handedOver_sampleId {c fresh : Channel} (hc : Channel.opened sampleId [] = .ok fresh)
    (hfresh : c.target = fresh.target) (hb : c.Bounded) (htag : c.lastEtag = some "v1") :
    c.handedOver = .ok c.resumed := by
  obtain ⟨hobject, hoptions⟩ := Channel.isFresh_of_opened hc
  have hobject' : c.object = sampleId := (congrArg Prod.fst hfresh).trans hobject
  have hoptions' : c.options = [] := (congrArg (fun t => t.2.2) hfresh).trans hoptions
  rw [← hobject', ← hoptions'] at hc
  refine Channel.handedOver_eq hc hfresh ?_ hb ?_
  · rw [hobject', hoptions']
    exact ⟨by decide, by decide, .inl rfl, by decide, nofun⟩
  · rw [htag]
    rintro t ⟨⟩
    decide

theorem tags_survive_hand_over_sample :
    ∃ fresh c c' outcomes outcomes' t receipts, Channel.opened sampleId [] = .ok fresh
      ∧ Channel.performMoves Source.scripted.receipted (sampleFirst.map Move.receipted) fresh
          (sampleChain, []) = .ok (outcomes, c, t)
      ∧ Channel.performMoves Source.scripted.receipted (sampleSecond.map Move.receipted) c t
          = .ok (outcomes', c', [], receipts)
      ∧ receipts = [⟨some "v2", [87, 88, 89, 90], true⟩, ⟨some "v1", [67, 68, 69, 70], false⟩,
        ⟨some "v1", [65, 66, 67, 68], false⟩]
      ∧ outcomes'.flatMap Outcome.bytes = [67, 68, 69, 70]
      ∧ KeepsTag receipts
      ∧ Drawn [⟨some "v1", [67, 68, 69, 70], false⟩, ⟨some "v1", [65, 66, 67, 68], false⟩]
        (outcomes'.flatMap Outcome.bytes) := by
  obtain ⟨fresh, c, c', outcomes, outcomes', t, receipts, hc, hrun, hmore, hreceipts, hlength,
      hbytes⟩ :
      ∃ fresh c c' outcomes outcomes' t receipts, Channel.opened sampleId [] = .ok fresh
        ∧ Channel.performMoves Source.scripted.receipted (sampleFirst.map Move.receipted) fresh
            (sampleChain, []) = .ok (outcomes, c, t)
        ∧ Channel.performMoves Source.scripted.receipted (sampleSecond.map Move.receipted) c t
            = .ok (outcomes', c', [], receipts)
        ∧ receipts = [⟨some "v2", [87, 88, 89, 90], true⟩, ⟨some "v1", [67, 68, 69, 70], false⟩,
          ⟨some "v1", [65, 66, 67, 68], false⟩]
        ∧ t.2.length = 1 ∧ outcomes'.flatMap Outcome.bytes = [67, 68, 69, 70] := by
    refine ⟨_, ?_, ?_, ?_, ?_, ?_, ?_, rfl, ?first, ?second, ?_, ?_, ?_⟩
    case first =>
      show Channel.performMoves Source.scripted.receipted [.operate (.setChunkSize 4),
        .operate (.readInto 2), .handOver Source.scripted.receipted] _ _ = _
      rw [Channel.performMoves_operate, Channel.performMoves_operate,
        Channel.performMoves_handOver, handedOver_sampleId rfl ?_ ?_ ?_]
      · rfl
      · rfl
      · exact ⟨by decide, by decide, by decide⟩
      · rfl
    case second =>
      show Channel.performMoves Source.scripted.receipted [.operate (.readInto 4),
        .handOver Source.scripted.receipted, .operate (.readInto 4)] _ _ = _
      rw [Channel.performMoves_operate, Channel.performMoves_handOver,
        handedOver_sampleId rfl ?_ ?_ ?_]
      · rfl
      · rfl
      · exact ⟨by decide, by decide, by decide⟩
      · rfl
    all_goals rfl
  obtain ⟨-, -, -, hkeeps, hdrawn⟩ := tags_survive_hand_over Source.scripted Source.scripted hc
    sampleFirst sampleSecond (by simp [sampleFirst, sampleSecond, Move.SeekFree]) sampleChain hrun
    hmore
  obtain ⟨early, late, hsplit, -, hlate, hearly⟩ := hdrawn
    [⟨some "v2", [87, 88, 89, 90], true⟩, ⟨some "v1", [67, 68, 69, 70], false⟩]
    ⟨some "v1", [65, 66, 67, 68], false⟩ [] "v1" hreceipts (by decide) rfl rfl
  refine ⟨fresh, c, c', outcomes, outcomes', t, receipts, hc, hrun, hmore, hreceipts, hbytes,
    hkeeps, ?_⟩
  rw [hsplit, hearly (by rw [hlength]; decide)]
  exact hlate

end RangeReader

import RangeReader.Proofs.Closing

/-!
# What a read writes

A read is given a window on a block of memory, and reports how many bytes it
wrote. What it reports is all that it wrote: those bytes stand at the start of the
window, and every other byte of the block, in the window or outside of it, is as
it was. The block may be one of items of several bytes. The window is then
between items, and what a read counts are bytes all the same
(`Window.capacity_ofItems`).

The bytes are the next ones of the object. They come from the answer to the last
request of the log, whether that was made just now or some reads before, and in
it they stand where the pointer was (`written_of_readStep`).
-/

namespace RangeReader

namespace Window

/-! ## Writing into a window -/

/-- **A window on items** of `width` bytes each: from the item `first` up to the
item `last` of a block. -/
def ofItems (width : Nat) (block : List UInt8) (first last : Nat) : Window :=
  ⟨block, width * first, width * last⟩

/-- **The room of a window on items is counted in bytes.** -/
theorem capacity_ofItems {width count : Nat} {block : List UInt8}
    (h : block.length = width * count) (first last : Nat) :
    (ofItems width block first last).capacity = width * (min last count - first) := by
  unfold capacity ofItems
  rw [h, Nat.mul_sub, Nat.mul_min_mul_left]

variable {w : Window} {data : List UInt8}

/-- Writing nothing leaves a window as it is. -/
theorem put_nil (w : Window) : w.put [] = w := by
  unfold put
  rw [List.append_nil, List.length_nil, Nat.add_zero, List.take_append_drop]

/-- What fits into a window and is not empty ends inside the block. -/
theorem length_le_of_fits (hd : data ≠ []) (h : data.length ≤ w.capacity) :
    w.start + data.length ≤ w.block.length := by
  have := List.length_pos_iff.mpr hd
  unfold capacity at h
  omega

/-- **The block after writing**, byte by byte. -/
theorem getElem?_put (h : data.length ≤ w.capacity) (i : Nat) :
    (w.put data).block[i]?
      = if w.start ≤ i ∧ i < w.start + data.length then data[i - w.start]? else w.block[i]? := by
  by_cases hd : data = []
  · subst hd
    rw [put_nil, if_neg (by rw [List.length_nil]; omega)]
  have hle := length_le_of_fits hd h
  have hstart : (w.block.take w.start).length = w.start := by
    rw [List.length_take]
    omega
  show (w.block.take w.start ++ data ++ w.block.drop (w.start + data.length))[i]? = _
  rw [List.append_assoc]
  -- before the bytes written, among them, or behind them
  by_cases hbefore : i < w.start
  · rw [List.getElem?_append_left (by omega), List.getElem?_take_of_lt hbefore,
      if_neg (by omega)]
  · rw [List.getElem?_append_right (by omega), hstart]
    by_cases hin : i < w.start + data.length
    · rw [List.getElem?_append_left (by omega), if_pos ⟨by omega, hin⟩]
    · rw [List.getElem?_append_right (by omega), List.getElem?_drop, if_neg (by omega)]
      congr 1
      omega

/-- Writing into a block makes it neither longer nor shorter. -/
theorem length_put (h : data.length ≤ w.capacity) :
    (w.put data).block.length = w.block.length := by
  by_cases hd : data = []
  · rw [hd, put_nil]
  have hle := length_le_of_fits hd h
  unfold put
  simp only [List.length_append, List.length_take, List.length_drop]
  omega

end Window

namespace Channel

variable {σ : Type} {source : Source σ} {capacity : Nat} {c after : Channel}
variable {t t' : σ × List LogEntry}

/-- **A read into a window is a read with the room of the window**, and writes
what it gives. -/
theorem readWindow_eq_iff {s s' : σ} {w w' : Window} {d : Delivery} :
    c.readWindow source w s = (d, w', after, s')
      ↔ c.readInto source w.capacity s = (d, after, s') ∧ w' = w.put d.written := by
  unfold readWindow
  rcases c.readInto source w.capacity s with ⟨given, next, u⟩
  have hnil : w.put [] = w := w.put_nil
  constructor
  · intro h
    cases given <;> cases h
    · exact ⟨rfl, rfl⟩
    · exact ⟨rfl, hnil.symm⟩
    · exact ⟨rfl, hnil.symm⟩
  · rintro ⟨h, rfl⟩
    cases h
    cases d
    · rfl
    · exact congrArg (fun w => (Delivery.ended, w, after, s')) hnil.symm
    · exact congrArg (fun w => (Delivery.failed _, w, after, s')) hnil.symm

/-- A result over a source that keeps a log is one over the source, with a log. -/
theorem exists_log {α β : Type} {x : α} {y : β} {s : σ} {result : α × β × σ × List LogEntry}
    (h : (x, y, s) = seen Prod.fst result) : ∃ log, result = (x, y, s, log) := by
  cases h
  exact ⟨_, rfl⟩

/-- **Where the bytes of a read come from**: the answer to the last request, from
the offset of the pointer on. That request is made by the read only where the
channel has no bytes left. -/
structure ComesFrom (c : Channel) (written : List UInt8) (log log' : List LogEntry) : Prop where
  last : ∃ request answer earlier, log' = .fetch request (.ok answer) :: earlier
    ∧ request.offset ≤ c.pointer
    ∧ written <+: (answer.data.take request.length).drop (c.pointer - request.offset)
    ∧ (c.unread = [] → earlier = log ∧ request.offset = c.pointer)
  left : c.unread ≠ [] → log' = log ∧ written <+: c.unread

/-- **The bytes of a read are the next ones.** -/
theorem written_of_readStep {d : Delivery} (h : c.FromLast t)
    (step : ReadStep source.logged capacity c t d after t') (hd : d.written ≠ []) :
    c.ComesFrom d.written t.2 t'.2 := by
  cases step with
  | served _ hu _ =>
    obtain ⟨request, answer, earlier, hlog, -, hleft⟩ := h hu
    have hpointer : c.pointer = request.offset + c.served := by
      rw [← hleft.position_eq]
      rfl
    refine ⟨⟨request, answer, earlier, hlog, by omega, ?_, fun hnil => absurd hnil hu⟩,
      fun _ => ⟨rfl, List.take_prefix _ _⟩⟩
    rw [hpointer, Nat.add_sub_cancel_left, ← hleft.unread_eq]
    exact List.take_prefix _ _
  | fetched answer _ filled hf ha _ _ hfilled =>
    refine ⟨⟨_, answer, t.2, log_of_answered ha, Nat.le_refl _, ?_, fun _ => ⟨rfl, rfl⟩⟩,
      fun hu => absurd hf.unread_eq hu⟩
    show _ <+: (answer.data.take (c.wanted capacity)).drop (c.pointer - c.pointer)
    rw [Nat.sub_self, List.drop_zero, hfilled]
    exact List.take_prefix _ _
  | _ => exact absurd rfl hd

end Channel

/-! ## The theorem -/

/-- **A read writes what it reports, and nothing else.** Take any channel, opened
or restored, over any source, after any operations, and a read into a window on
items of a block, of any number of bytes each; a window on bytes is one on items
of one byte.

* There is room for as many bytes as the items have that are in the window and
  in the block. The bytes reported are not more, and they are the first ones of
  the window.
* Every other byte of the block is as it was, and so is its length. Where the end
  or a fault is reported, that is the whole block.
* The bytes are the next ones of the object: with a log kept of the requests, they
  stand at the pointer in the answer to the last of them, which is made by this
  read only where no bytes of a chunk were left. -/
theorem reads_write_what_they_report {σ : Type} (source : Source σ) {c : Channel} (hc : c.Made)
    (ops : List Operation) (s : σ) {outcomes : List Outcome} {now : Channel} {t : σ}
    (hrun : Channel.performAll source ops c s = (outcomes, now, t))
    {width count : Nat} {block : List UInt8} (hblock : block.length = width * count)
    (first last : Nat) {d : Delivery} {w' : Window} {after : Channel} {t' : σ}
    (hread : now.readWindow source (.ofItems width block first last) t = (d, w', after, t')) :
    d.written.length ≤ width * (min last count - first)
      ∧ (∀ i < d.written.length, w'.block[width * first + i]? = d.written[i]?)
      ∧ (∀ i, i < width * first ∨ width * first + d.written.length ≤ i → w'.block[i]? = block[i]?)
      ∧ w'.block.length = block.length
      ∧ ((∀ data, d ≠ .bytes data) → w'.block = block)
      ∧ ∃ log log', Channel.performAll source.logged ops c (s, []) = (outcomes, now, t, log)
        ∧ now.readWindow source.logged (.ofItems width block first last) (t, log)
          = (d, w', after, t', log')
        ∧ (d.written ≠ [] → now.ComesFrom d.written log log') := by
  obtain ⟨hplain, rfl⟩ := Channel.readWindow_eq_iff.mp hread
  obtain ⟨log, hlogged⟩ := Channel.exists_log
    (hrun.symm.trans (Channel.performAll_seen source.sees_logged ops c (s, [])))
  obtain ⟨log', hstep⟩ := Channel.exists_log
    (hplain.symm.trans (Channel.readInto_seen source.sees_logged _ now (t, log)))
  have hfrom : now.FromLast (t, log) := by
    have hstart : c.FromLast (s, []) := .of_nil hc.unread_eq.1
    have h : (Channel.performAll source.logged ops c (s, [])).2.1.FromLast
      (Channel.performAll source.logged ops c (s, [])).2.2 := hstart.performAll ops
    rw [hlogged] at h
    exact h
  have step := Channel.ReadStep.of_eq hstep
  have hfits : d.written.length ≤ (Window.ofItems width block first last).capacity :=
    Nat.le_trans (Channel.written_readStep step) (Nat.min_le_left _ _)
  have hbytes := Window.getElem?_put hfits
  refine ⟨?_, fun i hi => ?_, fun i hi => ?_, Window.length_put hfits, fun hstops => ?_, log, log',
    hlogged, Channel.readWindow_eq_iff.mpr ⟨hstep, rfl⟩, Channel.written_of_readStep hfrom step⟩
  · rw [← Window.capacity_ofItems hblock]
    exact hfits
  · rw [hbytes]
    show (if width * first ≤ width * first + i
        ∧ width * first + i < width * first + d.written.length
      then d.written[width * first + i - width * first]? else _) = _
    rw [if_pos ⟨by omega, by omega⟩, Nat.add_sub_cancel_left]
  · rw [hbytes]
    exact if_neg (show ¬ (width * first ≤ i ∧ i < width * first + d.written.length) by omega)
  · cases d with
    | bytes data => exact absurd rfl (hstops data)
    | ended | failed fault => exact congrArg Window.block (Window.put_nil _)

/-- Three items of four bytes. -/
def sampleBlock : List UInt8 := List.replicate 12 0xEE

theorem reads_write_what_they_report_sample :
    ∃ c outcomes now after w', c.Made
      ∧ Channel.performAll Source.overfull [.setChunkSize 4, .readInto 1] c () = (outcomes, now, ())
      ∧ now.unread = [66, 67, 68]
      ∧ now.readWindow Source.overfull (.ofItems 4 sampleBlock 1 2) ()
        = (.bytes [66, 67, 68], w', after, ())
      ∧ (∀ i, i < 4 ∨ 7 ≤ i → w'.block[i]? = sampleBlock[i]?)
      ∧ ∃ log log', now.ComesFrom [66, 67, 68] log log' := by
  obtain ⟨c, hc, outcomes, now, after, w', hrun, hunread, hread⟩ :
      ∃ c, Channel.opened sampleId [] = .ok c ∧ ∃ outcomes now after w',
        Channel.performAll Source.overfull [.setChunkSize 4, .readInto 1] c () = (outcomes, now, ())
          ∧ now.unread = [66, 67, 68]
          ∧ now.readWindow Source.overfull (.ofItems 4 sampleBlock 1 2) ()
            = (.bytes [66, 67, 68], w', after, ()) :=
    ⟨_, rfl, _, _, _, _, rfl, rfl, rfl⟩
  obtain ⟨-, -, hframe, -, -, log, log', -, -, hfrom⟩ :=
    reads_write_what_they_report Source.overfull (.opened hc) [.setChunkSize 4, .readInto 1] () hrun
      (show sampleBlock.length = 4 * 3 from rfl) 1 2 hread
  exact ⟨c, outcomes, now, after, w', .opened hc, hrun, hunread, hread, hframe, log, log',
    hfrom (List.cons_ne_nil _ _)⟩

end RangeReader

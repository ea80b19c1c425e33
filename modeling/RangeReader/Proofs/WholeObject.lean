import RangeReader.Proofs.FetchLog
import RangeReader.RemoteObject

/-!
# Two ways to the whole object

The content of an object can be asked for in one piece, and it can be copied to
a sink. Each way has a loop of its own: one keeps the pieces and puts them
together at the end, the other passes them on as they come and only counts
them.

Neither loop decides anything that the channel sees. Both ask for the next
piece, with the same room, until a read gives none. What the channel gives then
is a fact about the channel and its source alone: `Deliveries` has it, and
there is always exactly one. Each loop is a function of it (`drain_of_deliveries`,
`copy_of_deliveries`), so the two can be compared, also where the last read
fails.
-/

namespace RangeReader

/-- What a loop ends with whose last read gives no bytes: what it has made of
the pieces before, or the fault. -/
def Delivery.conclude {α : Type} (made : α) : Delivery → Except Fault α
  | .failed fault => .error fault
  | _ => .ok made

theorem Delivery.conclude_eq_ok {α : Type} {d : Delivery} {made x : α} :
    d.conclude made = .ok x ↔ (∀ fault, d ≠ .failed fault) ∧ made = x := by
  cases d <;> simp [conclude]

theorem Delivery.conclude_eq_error {α : Type} {d : Delivery} {made : α} {fault : Fault} :
    d.conclude made = .error fault ↔ d = .failed fault := by
  cases d <;> simp [conclude]

namespace Channel

/-- **What a channel gives, read after read**, with room for `capacity` bytes
each time: pieces, until a read gives none. -/
inductive Deliveries {σ : Type} (source : Source σ) (capacity : Nat) :
    Channel → σ → List (List UInt8) → Delivery → Channel → σ → Prop where
  /-- A read without bytes is the last one. -/
  | last {c after : Channel} {s s' : σ} {d : Delivery}
      (read : c.readInto source capacity s = (d, after, s')) (stops : ∀ data, d ≠ .bytes data) :
    Deliveries source capacity c s [] d after s'
  /-- A piece, and what comes after it. -/
  | piece {c after final : Channel} {s s' t : σ} {data : List UInt8} {pieces : List (List UInt8)}
      {d : Delivery} (read : c.readInto source capacity s = (.bytes data, after, s'))
      (others : Deliveries source capacity after s' pieces d final t) :
    Deliveries source capacity c s (data :: pieces) d final t

variable {σ τ : Type} {source : Source σ} {capacity : Nat} {c final : Channel} {s t : σ}
variable {pieces : List (List UInt8)} {d : Delivery}

/-- **A channel always stops giving**, whatever its source answers. -/
theorem exists_deliveries (source : Source σ) (hc : 0 < capacity) (c : Channel) (s : σ) :
    ∃ pieces d final t, Deliveries source capacity c s pieces d final t := by
  -- the loop that drains the channel goes through the same reads
  generalize hbefore : ([] : List (List UInt8)) = before
  clear hbefore
  fun_induction drain source capacity hc before c s with
  | case1 before c s data after s' hr _ ih =>
    obtain ⟨pieces, d, final, t, hothers⟩ := ih
    exact ⟨data :: pieces, d, final, t, .piece hr hothers⟩
  | case2 before c s after s' hr =>
    refine ⟨[], .ended, after, s', .last hr ?_⟩
    rintro data ⟨⟩
  | case3 before c s fault after s' hr =>
    refine ⟨[], .failed fault, after, s', .last hr ?_⟩
    rintro data ⟨⟩

/-- **Draining puts the pieces together.** -/
theorem drain_of_deliveries (hc : 0 < capacity)
    (h : Deliveries source capacity c s pieces d final t) (before : List (List UInt8)) :
    c.drain source capacity hc before s
      = (d.conclude (before.reverse ++ pieces).flatten, final, t) := by
  induction h generalizing before with
  | @last c after s s' d read stops =>
    rw [List.append_nil]
    cases d with
    | bytes data => exact absurd rfl (stops data)
    | ended => exact drain_of_ended read
    | failed fault => exact drain_of_failed read
  | @piece c after final s s' t data pieces d read others ih =>
    rw [drain_of_bytes read, ih, List.reverse_cons, List.append_assoc]
    rfl

section Copy

variable {write : List UInt8 → τ → τ} {hc : 0 < capacity} {count : Nat} {sink : τ}
variable {after : Channel} {s' : σ} {data : List UInt8} {fault : Fault}

theorem copy_of_bytes (h : c.readInto source capacity s = (.bytes data, after, s')) :
    c.copy source write capacity hc count sink s
      = after.copy source write capacity hc (count + data.length) (write data sink) s' := by
  rw [copy]
  split <;> rename_i hr <;> rw [h] at hr <;> cases hr
  rfl

theorem copy_of_ended (h : c.readInto source capacity s = (.ended, after, s')) :
    c.copy source write capacity hc count sink s = (.ok count, sink, after, s') := by
  rw [copy]
  split <;> rename_i hr <;> rw [h] at hr <;> cases hr
  rfl

theorem copy_of_failed (h : c.readInto source capacity s = (.failed fault, after, s')) :
    c.copy source write capacity hc count sink s = (.error fault, sink, after, s') := by
  rw [copy]
  split <;> rename_i hr <;> rw [h] at hr <;> cases hr
  rfl

end Copy

/-- **A source that holds more makes no difference** to what is given. -/
theorem Deliveries.seen {inner : Source σ} {outer : Source τ} {view : τ → σ}
    (hsees : inner.Sees outer view) {u v : τ} (h : Deliveries outer capacity c u pieces d final v) :
    Deliveries inner capacity c (view u) pieces d final (view v) := by
  have hread {c : Channel} {u v : τ} {d : Delivery} {after : Channel}
      (hr : c.readInto outer capacity u = (d, after, v)) :
      c.readInto inner capacity (view u) = (d, after, view v) := by
    rw [readInto_seen hsees, hr]
    rfl
  induction h with
  | last read stops => exact .last (hread read) stops
  | piece read _ ih => exact .piece (hread read) ih

/-- **Copying passes the pieces on**, in order, and counts their bytes. -/
theorem copy_of_deliveries (write : List UInt8 → τ → τ) (hc : 0 < capacity)
    (h : Deliveries source capacity c s pieces d final t) (count : Nat) (sink : τ) :
    c.copy source write capacity hc count sink s
      = (d.conclude (count + pieces.flatten.length),
        pieces.foldl (fun sink piece => write piece sink) sink, final, t) := by
  induction h generalizing count sink with
  | @last c after s s' d read stops =>
    cases d with
    | bytes data => exact absurd rfl (stops data)
    | ended => exact copy_of_ended read
    | failed fault => exact copy_of_failed read
  | @piece c after final s s' t data pieces d read others ih =>
    rw [copy_of_bytes read, ih, List.flatten_cons, List.length_append, ← Nat.add_assoc]
    rfl

end Channel

/-- A file of bytes, with some more at its end. -/
def appendTo (data file : List UInt8) : List UInt8 := file ++ data

/-- Pieces at the end of a file are there one after the other. -/
theorem foldl_appendTo (pieces : List (List UInt8)) (file : List UInt8) :
    pieces.foldl (fun file piece => appendTo piece file) file = file ++ pieces.flatten := by
  induction pieces generalizing file with
  | nil => exact (List.append_nil file).symm
  | cons piece pieces ih =>
    rw [List.foldl_cons, ih, List.flatten_cons, appendTo, List.append_assoc]

namespace RemoteObject

variable {σ : Type} {source : Source σ} {options : List ReadOption} {o : RemoteObject} {s t : σ}
variable {c final : Channel} {pieces : List (List UInt8)} {d : Delivery}

/-- The journal after a copy: it has the size of what was copied. -/
def noteDownload (source : Source σ) (o : RemoteObject) (destination : String) :
    Except Fault Nat → σ → σ
  | .ok count, s => source.note (.downloaded o.object.text count destination) s
  | .error _, s => s

/-- The content is what the channel gives. -/
theorem content_of_deliveries (hc : o.reader options = .ok c) (ho : c.isOpen = true)
    (h : c.Deliveries source c.chunkSize s pieces d final t) :
    o.content source options s = (d.conclude pieces.flatten, t) := by
  have hread : c.read source (-1) s = (d.conclude pieces.flatten, final, t) := by
    unfold Channel.read
    rw [if_neg (by rw [ho]; decide), if_pos (by decide)]
    exact Channel.drain_of_deliveries c.chunkSize_pos h []
  unfold content Channel.readAndClose
  rw [hc]
  dsimp only
  rw [hread]

/-- The copy is what the channel gives. -/
theorem download_of_deliveries (hc : o.reader options = .ok c)
    (h : c.Deliveries source c.chunkSize s pieces d final t) (destination : String)
    (file : List UInt8) :
    o.download source options appendTo destination file s
      = (d.conclude pieces.flatten.length, file ++ pieces.flatten,
        noteDownload source o destination (d.conclude pieces.flatten.length) t) := by
  unfold download
  rw [hc]
  dsimp only
  rw [Channel.copy_of_deliveries appendTo c.chunkSize_pos h, foldl_appendTo, Nat.zero_add]
  cases d <;> rfl

/-- What a copy has written when it fails: nothing where there is no channel,
and else all that the channel gave before. -/
inductive WrittenBefore (source : Source σ) (options : List ReadOption) (o : RemoteObject)
    (s t : σ) (fault : Fault) : List UInt8 → Prop where
  /-- There is no channel. -/
  | unopened (reader_eq : o.reader options = .error fault) (state_eq : t = s) :
    WrittenBefore source options o s t fault []
  /-- A read failed. -/
  | stopped {c final : Channel} {pieces : List (List UInt8)} (reader_eq : o.reader options = .ok c)
      (given : c.Deliveries source c.chunkSize s pieces (.failed fault) final t) :
    WrittenBefore source options o s t fault pieces.flatten

end RemoteObject

/-! ## The theorem -/

/-- **Both ways to the whole object agree**, over any source, whatever it
answers and however it fails, with any options.

* They make the same requests, with the same results, and leave the source in
  the same state, but for the line in the journal that a copy ends with; keeping
  a log of the requests changes nothing.
* One gives bytes if and only if the other writes just these and counts them.
* One fails if and only if the other does, with the same fault.
* A copy that fails has written, in order, what the channel gave before. -/
theorem whole_object_paths_agree {σ : Type} (source : Source σ) (options : List ReadOption)
    (o : RemoteObject) (destination : String) (file : List UInt8) (s : σ)
    {content : Except Fault (List UInt8)} {count : Except Fault Nat} {file' : List UInt8} {t t' : σ}
    (hcontent : o.content source options s = (content, t))
    (hdownload : o.download source options appendTo destination file s = (count, file', t')) :
    (∃ log, o.content source.logged options (s, []) = (content, t, log)
        ∧ o.download source.logged options appendTo destination file (s, [])
          = (count, file', t', log))
      ∧ t' = RemoteObject.noteDownload source o destination count t
      ∧ (∀ bytes, content = .ok bytes ↔ count = .ok bytes.length ∧ file' = file ++ bytes)
      ∧ (∀ fault, content = .error fault ↔ count = .error fault)
      ∧ ∀ fault, count = .error fault →
        ∃ written, file' = file ++ written
          ∧ RemoteObject.WrittenBefore source options o s t fault written := by
  cases hc : o.reader options with
  | error fault =>
    -- there is nothing to read from, for either of them
    unfold RemoteObject.content at hcontent
    unfold RemoteObject.download at hdownload
    rw [hc] at hcontent hdownload
    cases hcontent
    cases hdownload
    refine ⟨⟨[], ?_, ?_⟩, rfl, by simp, by simp, ?_⟩
    · unfold RemoteObject.content
      rw [hc]
    · unfold RemoteObject.download
      rw [hc]
    · rintro _ ⟨⟩
      exact ⟨[], (List.append_nil file).symm, .unopened hc rfl⟩
  | ok c =>
    obtain ⟨resolved, hopened⟩ := RemoteObject.opened_of_reader hc
    have ho := (Channel.isFresh_of_opened hopened).isOpen
    obtain ⟨pieces, d, final, ⟨u, log⟩, hlogged⟩ :=
      Channel.exists_deliveries source.logged c.chunkSize_pos c (s, [])
    have hplain := hlogged.seen source.sees_logged
    have hcontent' := RemoteObject.content_of_deliveries hc ho hplain
    have hdownload' := RemoteObject.download_of_deliveries hc hplain destination file
    rw [hcontent] at hcontent'
    rw [hdownload] at hdownload'
    cases hcontent'
    cases hdownload'
    refine ⟨⟨log, RemoteObject.content_of_deliveries hc ho hlogged, ?_⟩, rfl, fun bytes => ?_,
      fun fault => ?_, ?_⟩
    · rw [RemoteObject.download_of_deliveries hc hlogged destination file]
      cases d <;> rfl
    · rw [List.append_cancel_left_eq, Delivery.conclude_eq_ok, Delivery.conclude_eq_ok]
      constructor
      · rintro ⟨hover, rfl⟩
        exact ⟨⟨hover, rfl⟩, rfl⟩
      · rintro ⟨⟨hover, -⟩, rfl⟩
        exact ⟨hover, rfl⟩
    · rw [Delivery.conclude_eq_error, Delivery.conclude_eq_error]
    · intro fault hfault
      obtain rfl := Delivery.conclude_eq_error.mp hfault
      exact ⟨pieces.flatten, rfl, .stopped hc hplain⟩

/-- The object of the sample identity. -/
def sampleRemote : RemoteObject := ⟨sampleId, .null⟩

theorem whole_object_paths_agree_sample :
    sampleRemote.content Source.overfull [] () = (.ok [65, 66, 67, 68, 69, 70], ())
      ∧ sampleRemote.download Source.overfull [] appendTo "copy" [1] ()
        = (.ok 6, [1, 65, 66, 67, 68, 69, 70], ())
      ∧ ∃ log, sampleRemote.content Source.overfull.logged [] ((), [])
          = (.ok [65, 66, 67, 68, 69, 70], (), log)
        ∧ sampleRemote.download Source.overfull.logged [] appendTo "copy" [1] ((), [])
          = (.ok 6, [1, 65, 66, 67, 68, 69, 70], (), log) := by
  obtain ⟨c, final, hc, ho, hgiven⟩ : ∃ c final, sampleRemote.reader [] = .ok c ∧ c.isOpen = true
      ∧ c.Deliveries Source.overfull c.chunkSize () [[65, 66, 67, 68, 69, 70]] .ended final () :=
    ⟨_, _, rfl, rfl, .piece rfl (.last rfl nofun)⟩
  have hcontent := RemoteObject.content_of_deliveries hc ho hgiven
  have hdownload := RemoteObject.download_of_deliveries hc hgiven "copy" [1]
  exact ⟨hcontent, hdownload,
    (whole_object_paths_agree Source.overfull [] sampleRemote "copy" [1] () hcontent hdownload).1⟩

end RangeReader

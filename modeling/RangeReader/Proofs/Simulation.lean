import RangeReader.Proofs.ReadStep

/-!
# Channels in lockstep

Two channels, each over a source of its own, are in lockstep if they are in a
relation that every read keeps, with the same result on both sides, and every
other thing that can be done to a channel too (`Channel.Lockstep`). The loops
are reads one after the other, and runs are operations one after the other, so
that much is enough for the same outcomes of whole runs
(`Lockstep.performAll`), and for the relation between the channels on the way
(`Lockstep.channels`).

The first use is for equal channels. A channel knows nothing of its source but
the answers, so it does the same over two sources as long as their answers are
the same, whatever else the sources do: `Source.Agree` says that they are, in
the states that a relation allows. Where one of the sources only holds more in
its state, the relation is a function (`Source.Sees`).
-/

namespace RangeReader

variable {σ τ : Type}

namespace Channel

/-! ## Lockstep -/

/-- **Results that are alike**: the same, with channels and states that are
related. -/
structure Alike {α : Type} (R : Channel → σ → Channel → τ → Prop) (x : α × Channel × σ)
    (y : α × Channel × τ) : Prop where
  result : x.1 = y.1
  state : R x.2.1 x.2.2 y.2.1 y.2.2

/-- **Channels in lockstep**: what decides about the next operation is the same
on both sides, and the relation is kept by reads, with the same results, and by
everything else that changes a channel. -/
structure Lockstep (first : Source σ) (second : Source τ) (R : Channel → σ → Channel → τ → Prop) :
    Prop where
  isOpen_eq : ∀ {c s c' t}, R c s c' t → c.isOpen = c'.isOpen
  pointer_eq : ∀ {c s c' t}, R c s c' t → c.pointer = c'.pointer
  chunkSize_eq : ∀ {c s c' t}, R c s c' t → c.chunkSize = c'.chunkSize
  readInto : ∀ {c s c' t}, R c s c' t → ∀ capacity,
    Alike R (c.readInto first capacity s) (c'.readInto second capacity t)
  closed : ∀ {c s c' t}, R c s c' t →
    R { c.dropChunk with isOpen := false } s { c'.dropChunk with isOpen := false } t
  moved : ∀ {c s c' t}, R c s c' t → ∀ position,
    R (c.movedTo position) (first.note (.seeking c.object.text position) s)
      (c'.movedTo position) (second.note (.seeking c'.object.text position) t)
  limited : ∀ {c s c' t}, R c s c' t → ∀ limit,
    R { c with limit := limit } s { c' with limit := limit } t
  resized : ∀ {c s c' t}, R c s c' t → ∀ n, R (c.setChunkSize n) s (c'.setChunkSize n) t

/-- **The channels on the way**: what each of the operations leaves. -/
def channels (source : Source σ) : List Operation → Channel → σ → List Channel
  | [], _, _ => []
  | op :: ops, c, s =>
    let next := (c.perform source op s).2
    next.1 :: channels source ops next.1 next.2

theorem performAll_cons (source : Source σ) (op : Operation) (ops : List Operation) (c : Channel)
    (s : σ) :
    performAll source (op :: ops) c s
      = ((c.perform source op s).1 ::
          (performAll source ops (c.perform source op s).2.1 (c.perform source op s).2.2).1,
        (performAll source ops (c.perform source op s).2.1 (c.perform source op s).2.2).2) :=
  rfl

/-- The state after one operation more. -/
theorem performAll_concat (source : Source σ) (ops : List Operation) (op : Operation)
    (c : Channel) (s : σ) :
    (performAll source (ops ++ [op]) c s).2
      = ((performAll source ops c s).2.1.perform source op (performAll source ops c s).2.2).2 := by
  induction ops generalizing c s with
  | nil => rfl
  | cons first ops ih => exact ih _ _

namespace Lockstep

variable {first : Source σ} {second : Source τ} {R : Channel → σ → Channel → τ → Prop}
variable {c c' after : Channel} {s : σ} {t t' : τ} {capacity : Nat}

/-- What a read gives on one side, from what it gives on the other. -/
theorem readInto_of_eq (h : Lockstep first second R) (hst : R c s c' t) {d : Delivery}
    (hr : c'.readInto second capacity t = (d, after, t')) :
    ∃ before s', c.readInto first capacity s = (d, before, s') ∧ R before s' after t' := by
  obtain ⟨hresult, hstate⟩ := h.readInto hst capacity
  rw [hr] at hresult hstate
  exact ⟨_, _, Prod.ext hresult rfl, hstate⟩

theorem fill (h : Lockstep first second R) (hst : R c s c' t) (size : Nat)
    (before : List (List UInt8)) :
    Alike R (c.fill first size before s) (c'.fill second size before t) := by
  fun_induction Channel.fill second size before c' t generalizing c s with
  | case1 size before c' t hc data after t' hr _ ih =>
    obtain ⟨_, s', hread, hst'⟩ := h.readInto_of_eq hst hr
    rw [fill_of_bytes hc hread]
    exact ih hst'
  | case2 size before c' t hc after t' hr =>
    obtain ⟨_, s', hread, hst'⟩ := h.readInto_of_eq hst hr
    rw [fill_of_ended hc hread]
    exact ⟨rfl, hst'⟩
  | case3 size before c' t hc fault after t' hr =>
    obtain ⟨_, s', hread, hst'⟩ := h.readInto_of_eq hst hr
    rw [fill_of_failed hc hread]
    exact ⟨rfl, hst'⟩
  | case4 size before c' t hc =>
    rw [fill_of_none hc]
    exact ⟨rfl, hst⟩

theorem drain (h : Lockstep first second R) (hst : R c s c' t) (capacity : Nat)
    (hc : 0 < capacity) (before : List (List UInt8)) :
    Alike R (c.drain first capacity hc before s) (c'.drain second capacity hc before t) := by
  fun_induction Channel.drain second capacity hc before c' t generalizing c s with
  | case1 before c' t data after t' hr _ ih =>
    obtain ⟨_, s', hread, hst'⟩ := h.readInto_of_eq hst hr
    rw [drain_of_bytes hread]
    exact ih hst'
  | case2 before c' t after t' hr =>
    obtain ⟨_, s', hread, hst'⟩ := h.readInto_of_eq hst hr
    rw [drain_of_ended hread]
    exact ⟨rfl, hst'⟩
  | case3 before c' t fault after t' hr =>
    obtain ⟨_, s', hread, hst'⟩ := h.readInto_of_eq hst hr
    rw [drain_of_failed hread]
    exact ⟨rfl, hst'⟩

theorem read (h : Lockstep first second R) (hst : R c s c' t) (size : Int) :
    Alike R (c.read first size s) (c'.read second size t) := by
  have hdrain : c.drain first c.chunkSize c.chunkSize_pos [] s
      = c.drain first c'.chunkSize c'.chunkSize_pos [] s := by
    congr 1
    exact h.chunkSize_eq hst
  unfold Channel.read
  rw [h.isOpen_eq hst, hdrain]
  split
  · exact ⟨rfl, hst⟩
  · split
    · exact h.drain hst _ _ []
    · exact h.fill hst _ []

theorem close (h : Lockstep first second R) (hst : R c s c' t) : R c.close s c'.close t := by
  unfold Channel.close
  rw [h.isOpen_eq hst]
  split
  · exact h.closed hst
  · exact hst

/-- **An operation has the same outcome on both sides.** -/
theorem perform (h : Lockstep first second R) (hst : R c s c' t) (op : Operation) :
    Alike R (c.perform first op s) (c'.perform second op t) := by
  cases op with
  | readInto capacity =>
    obtain ⟨hresult, hstate⟩ := h.readInto hst capacity
    rw [perform_readInto, perform_readInto]
    exact ⟨congrArg Outcome.ofDelivery hresult, hstate⟩
  | read size =>
    obtain ⟨hresult, hstate⟩ := h.read hst size
    exact ⟨congrArg (Outcome.ofResult .data) hresult, hstate⟩
  | readAndClose size =>
    obtain ⟨hresult, hstate⟩ := h.read hst size
    exact ⟨congrArg (Outcome.ofResult .data) hresult, h.close hstate⟩
  | seek target =>
    rw [perform_seek, perform_seek]
    unfold Channel.seek
    rw [h.isOpen_eq hst]
    split
    · exact ⟨rfl, hst⟩
    · exact ⟨rfl, hst⟩
    · exact ⟨rfl, h.moved hst _⟩
  | setLimit target =>
    rw [perform_setLimit, perform_setLimit]
    unfold Channel.setLimit
    cases bound .limit target with
    | error fault => exact ⟨rfl, hst⟩
    | ok limit => exact ⟨rfl, h.limited hst limit⟩
  | setChunkSize n => exact ⟨rfl, h.resized hst n⟩
  | tell =>
    refine ⟨?_, hst⟩
    show Outcome.ofResult Outcome.offset c.tell = Outcome.ofResult Outcome.offset c'.tell
    unfold Channel.tell
    rw [h.isOpen_eq hst, h.pointer_eq hst]
  | close => exact ⟨rfl, h.close hst⟩

/-- **A run has the same outcomes on both sides.** -/
theorem performAll (h : Lockstep first second R) (hst : R c s c' t) (ops : List Operation) :
    Alike R (Channel.performAll first ops c s) (Channel.performAll second ops c' t) := by
  induction ops generalizing c s c' t with
  | nil => exact ⟨rfl, hst⟩
  | cons op ops ih =>
    obtain ⟨hresult, hstate⟩ := h.perform hst op
    obtain ⟨hresults, hend⟩ := ih hstate
    rw [performAll_cons, performAll_cons]
    exact ⟨by rw [hresult, hresults], hend⟩

/-- **What related channels have in common, the channels on the way have in
common.** -/
theorem channels (h : Lockstep first second R) (hst : R c s c' t) {α : Type} {f : Channel → α}
    (hf : ∀ {c s c' t}, R c s c' t → f c = f c') (ops : List Operation) :
    (Channel.channels first ops c s).map f = (Channel.channels second ops c' t).map f := by
  induction ops generalizing c s c' t with
  | nil => rfl
  | cons op ops ih =>
    obtain ⟨-, hstate⟩ := h.perform hst op
    rw [Channel.channels, Channel.channels, List.map_cons, List.map_cons, hf hstate, ih hstate]

end Lockstep

end Channel

/-! ## Agreement -/

/-- **Sources that answer alike** in related states: requests for at least one
byte get the same answer from both, and the states stay related. -/
structure Source.Agree (R : σ → τ → Prop) (first : Source σ) (second : Source τ) : Prop where
  fetch : ∀ request s t, 0 < request.length → R s t →
    (first.fetch request s).1 = (second.fetch request t).1
      ∧ R (first.fetch request s).2 (second.fetch request t).2
  note : ∀ event s t, R s t → R (first.note event s) (second.note event t)

namespace Channel

/-- Equal channels over related states. -/
def Equal (R : σ → τ → Prop) (c : Channel) (s : σ) (c' : Channel) (t : τ) : Prop := c = c' ∧ R s t

variable {R : σ → τ → Prop} {first : Source σ} {second : Source τ} {s : σ} {t : τ}
variable {capacity : Nat} {c : Channel}

theorem noteChange_alike (h : first.Agree R second) (hst : R s t) (before after : Channel) :
    R (noteChange first before after s) (noteChange second before after t) := by
  unfold noteChange
  split
  · exact h.note _ s t hst
  · exact hst

theorem fetchInto_alike (h : first.Agree R second) (hst : R s t) (hw : 0 < c.wanted capacity) :
    Alike (Equal R) (c.fetchInto first capacity s) (c.fetchInto second capacity t) := by
  obtain ⟨hresult, hstate⟩ := h.fetch (c.request (c.wanted capacity)) _ _ hw
    (h.note (.fetching (c.wanted capacity) c.object.text c.pointer) s t hst)
  unfold fetchInto
  dsimp only
  revert hresult hstate
  rcases first.fetch (c.request (c.wanted capacity))
    (first.note (.fetching (c.wanted capacity) c.object.text c.pointer) s) with ⟨result, s'⟩
  rcases second.fetch (c.request (c.wanted capacity))
    (second.note (.fetching (c.wanted capacity) c.object.text c.pointer) t) with ⟨result', t'⟩
  rintro ⟨⟩ hstate
  cases result with
  | error fault => exact ⟨rfl, rfl, hstate⟩
  | ok answer => exact ⟨rfl, rfl, noteChange_alike h hstate c _⟩

theorem readInto_alike (h : first.Agree R second) (hst : R s t) (capacity : Nat) (c : Channel) :
    Alike (Equal R) (c.readInto first capacity s) (c.readInto second capacity t) := by
  unfold readInto
  repeat' split
  -- only a fetch touches the source, and it asks for at least one byte
  case h_2.isFalse.isFalse =>
    rename_i hlimit hcapacity
    refine fetchInto_alike h hst ?_
    unfold wanted
    omega
  all_goals exact ⟨rfl, rfl, hst⟩

/-- **Equal channels over sources that answer alike are in lockstep.** -/
theorem lockstep_of_agree (h : first.Agree R second) : Lockstep first second (Equal R) where
  isOpen_eq := fun ⟨hc, _⟩ => hc ▸ rfl
  pointer_eq := fun ⟨hc, _⟩ => hc ▸ rfl
  chunkSize_eq := fun ⟨hc, _⟩ => hc ▸ rfl
  readInto := by
    rintro c s _ t ⟨rfl, hst⟩ capacity
    exact readInto_alike h hst capacity c
  closed := by
    rintro c s _ t ⟨rfl, hst⟩
    exact ⟨rfl, hst⟩
  moved := by
    rintro c s _ t ⟨rfl, hst⟩ position
    exact ⟨rfl, h.note _ s t hst⟩
  limited := by
    rintro c s _ t ⟨rfl, hst⟩ limit
    exact ⟨rfl, hst⟩
  resized := by
    rintro c s _ t ⟨rfl, hst⟩ n
    exact ⟨rfl, hst⟩

/-- **A run does the same over either source.** -/
theorem performAll_alike (h : first.Agree R second) (hst : R s t) (ops : List Operation)
    (c : Channel) : Alike (Equal R) (performAll first ops c s) (performAll second ops c t) :=
  (lockstep_of_agree h).performAll ⟨rfl, hst⟩ ops

/-- **So do its operations one by one.** -/
theorem channels_alike (h : first.Agree R second) (hst : R s t) (ops : List Operation)
    (c : Channel) : channels first ops c s = channels second ops c t := by
  have hstart : Equal R c s c t := ⟨rfl, hst⟩
  have hmap := (lockstep_of_agree h).channels (f := id) hstart And.left ops
  rwa [List.map_id, List.map_id] at hmap

end Channel

/-! ## Sources that hold more -/

/-- **One source seen through another**, whose states hold more: it gives the
same answers, and what is added to its states has no part in them. -/
structure Source.Sees (inner : Source σ) (outer : Source τ) (view : τ → σ) : Prop where
  fetch : ∀ request t, inner.fetch request (view t)
    = ((outer.fetch request t).1, view (outer.fetch request t).2)
  note : ∀ event t, inner.note event (view t) = view (outer.note event t)

variable {inner : Source σ} {outer : Source τ} {view : τ → σ}

/-- A source agrees with another that it is seen through. -/
theorem Source.Sees.agree (h : inner.Sees outer view) :
    inner.Agree (fun s t => s = view t) outer where
  fetch request s t _ hst := by
    rw [hst, h.fetch]
    exact ⟨rfl, rfl⟩
  note event s t hst := by rw [hst, h.note]

namespace Channel

/-- A result with the part of the state that the inner source has. -/
def seen {α β : Type} (view : τ → σ) (result : α × β × τ) : α × β × σ :=
  (result.1, result.2.1, view result.2.2)

/-- A read gives the same over a source and over one that holds more. -/
theorem readInto_seen (h : inner.Sees outer view) (capacity : Nat) (c : Channel) (t : τ) :
    c.readInto inner capacity (view t) = seen view (c.readInto outer capacity t) := by
  obtain ⟨hresult, hchannel, hstate⟩ :=
    readInto_alike h.agree (rfl : view t = view t) capacity c
  exact Prod.ext hresult (Prod.ext hchannel hstate)

/-- An operation gives the same over a source and over one that holds more. -/
theorem perform_seen (h : inner.Sees outer view) (op : Operation) (c : Channel) (t : τ) :
    c.perform inner op (view t) = seen view (c.perform outer op t) := by
  obtain ⟨hresult, hchannel, hstate⟩ :=
    (lockstep_of_agree h.agree).perform (s := view t) ⟨rfl, rfl⟩ op
  exact Prod.ext hresult (Prod.ext hchannel hstate)

/-- **A run gives the same over a source and over one that holds more.** -/
theorem performAll_seen (h : inner.Sees outer view) (ops : List Operation) (c : Channel) (t : τ) :
    performAll inner ops c (view t) = seen view (performAll outer ops c t) := by
  obtain ⟨hresult, hchannel, hstate⟩ := performAll_alike h.agree (rfl : view t = view t) ops c
  exact Prod.ext hresult (Prod.ext hchannel hstate)

end Channel

end RangeReader

import RangeReader.Channel.Window
import RangeReader.Checkpoint
import RangeReader.Proofs.ReadStep

/-!
# What a channel can be like

The parts of a channel change one by one, some of them where a read fails, and
the source may answer anything: no bytes, more than were asked for, a fault.
Not every combination of the parts makes sense, and `Coherent` has those that
do. A chunk is there only while bytes of it are unread, in an open channel that
has noticed no change of its object. A change that was noticed leaves no chunk
and no end behind.

Every channel begins like that, opened or restored, and no use makes it
otherwise (`Coherent.useAll`). What a use does to the pointer stands apart, as it
holds of any channel: only a move and closing take it back, and a read advances
it by the bytes that it gives, all of them below the limit (`pointer_readStep`,
`written_readStep`).
-/

namespace RangeReader

/-- A result of two computations, one after the other, is one of the second
after a result of the first. -/
theorem eq_ok_of_bind {ε α β : Type} {x : Except ε α} {f : α → Except ε β} {y : β}
    (h : (x >>= f) = .ok y) : ∃ a, x = .ok a ∧ f a = .ok y := by
  cases x with
  | error e => cases h
  | ok a => exact ⟨a, rfl, h⟩

theorem bind_eq_ok_iff {ε α β : Type} {x : Except ε α} {f : α → Except ε β} {y : β} :
    (x >>= f) = .ok y ↔ ∃ a, x = .ok a ∧ f a = .ok y := by
  refine ⟨eq_ok_of_bind, ?_⟩
  rintro ⟨a, rfl, h⟩
  exact h

/-- **What a checkpoint is restored as**: a channel just opened, with the parts
that the checkpoint has. -/
theorem Checkpoint.restore_eq_ok {p : Checkpoint} {c : Channel} (h : p.restore = .ok c) :
    ∃ position limit fresh chunkSize lastEtag,
      Channel.bound .position p.position = .ok position
      ∧ Channel.bound .limit p.limit = .ok limit
      ∧ Channel.opened p.object p.options = .ok fresh
      ∧ p.chunkSize.asInt? = some chunkSize
      ∧ p.lastEtag = etagValue lastEtag
      ∧ c = { fresh.setChunkSize chunkSize with
        position := position
        isOpen := p.isOpen.truthy
        ended := p.ended.truthy
        limit := limit
        lastEtag := lastEtag } := by
  unfold restore at h
  obtain ⟨position, hposition, h⟩ := eq_ok_of_bind h
  obtain ⟨limit, hlimit, h⟩ := eq_ok_of_bind h
  obtain ⟨fresh, hfresh, h⟩ := eq_ok_of_bind h
  cases hsize : p.chunkSize.asInt? with
  | none =>
    rw [hsize] at h
    cases h
  | some chunkSize =>
    rw [hsize] at h
    cases htag : p.lastEtag with
    | null =>
      rw [htag] at h
      cases h
      exact ⟨position, limit, fresh, chunkSize, none, hposition, hlimit, hfresh, rfl, rfl, rfl⟩
    | text tag =>
      rw [htag] at h
      cases h
      exact ⟨position, limit, fresh, chunkSize, some tag, hposition, hlimit, hfresh, rfl, rfl, rfl⟩
    | _ =>
      rw [htag] at h
      cases h

namespace Channel

variable {σ : Type} {source : Source σ} {capacity : Nat} {c after : Channel} {s s' : σ}

/-! ## Coherent channels -/

/-- **Where a channel comes from**: it was opened, or it takes up a read. -/
inductive Made : Channel → Prop where
  | opened {object : ObjectId} {options : List ReadOption} {c : Channel}
      (opened_eq : opened object options = .ok c) : Made c
  | restored {p : Checkpoint} {c : Channel} (restore_eq : p.restore = .ok c) : Made c

/-- **What a channel is that comes from somewhere**: one without a chunk that
has noticed nothing. -/
theorem Made.unread_eq (h : c.Made) : c.unread = [] ∧ c.served = 0 ∧ c.modification = none := by
  have hfresh {object : ObjectId} {options : List ReadOption} {fresh : Channel}
      (ho : Channel.opened object options = .ok fresh) :
      fresh.unread = [] ∧ fresh.served = 0 ∧ fresh.modification = none := by
    unfold Channel.opened at ho
    split at ho
    · cases ho
    · cases ho
      exact ⟨rfl, rfl, rfl⟩
  cases h with
  | opened ho => exact hfresh ho
  | restored hr =>
    -- restoring changes none of the three
    obtain ⟨_, _, _, _, _, _, _, ho, _, _, rfl⟩ := Checkpoint.restore_eq_ok hr
    obtain ⟨hunread, hserved, hmodification⟩ := hfresh ho
    exact ⟨hunread, hserved, hmodification⟩

/-- **A channel that describes its object** as a channel opened for it does. -/
def Describes (c : Channel) : Prop :=
  ∃ fresh, Channel.opened c.object c.options = .ok fresh ∧ c.target = fresh.target

/-- What a channel reads decides about that. -/
theorem Describes.of_target {c' : Channel} (h : c.Describes) (htarget : c'.target = c.target) :
    c'.Describes := by
  have hobject : c'.object = c.object := congrArg Prod.fst htarget
  have hoptions : c'.options = c.options := congrArg (fun t => t.2.2) htarget
  obtain ⟨fresh, hopened, hfresh⟩ := h
  refine ⟨fresh, ?_, htarget.trans hfresh⟩
  rw [hobject, hoptions]
  exact hopened

/-- **A channel that comes from somewhere**, opened or restored, does. -/
theorem Made.describes (h : c.Made) : c.Describes := by
  have hself {fresh : Channel} {object : ObjectId} {options : List ReadOption}
      (ho : Channel.opened object options = .ok fresh) : fresh.Describes := by
    obtain ⟨hobject, hoptions⟩ := isFresh_of_opened ho
    refine ⟨fresh, ?_, rfl⟩
    rw [hobject, hoptions]
    exact ho
  cases h with
  | opened ho => exact hself ho
  | restored hr =>
    obtain ⟨_, _, _, _, _, _, _, ho, _, _, rfl⟩ := Checkpoint.restore_eq_ok hr
    exact (hself ho).of_target rfl

/-- **The chunk of a channel**, where there is one: how many of its bytes were
served, and how many it has. -/
def chunk? (c : Channel) : Option (Nat × Nat) :=
  if c.unread.isEmpty then none else some (c.served, c.served + c.unread.length)

theorem chunk?_eq_none_iff : c.chunk? = none ↔ c.unread = [] := by
  unfold chunk?
  rw [ite_eq_left_iff, Bool.not_eq_true, List.isEmpty_eq_false_iff]
  simp

/-- A chunk that is there is not served to its end. -/
theorem unread_of_chunk? {served size : Nat} (h : c.chunk? = some (served, size)) :
    c.unread ≠ [] ∧ served < size := by
  unfold chunk? at h
  split at h
  · cases h
  · rename_i hunread
    rw [List.isEmpty_iff] at hunread
    have := List.length_pos_iff.mpr hunread
    cases h
    exact ⟨hunread, by omega⟩

/-- **A channel whose parts go together.** -/
structure Coherent (c : Channel) : Prop where
  served_eq : c.unread = [] → c.served = 0
  isOpen : c.unread ≠ [] → c.isOpen = true
  unmodified : c.unread ≠ [] → c.modification = none
  not_ended : c.modification ≠ none → c.ended = false

namespace Coherent

theorem of_made (h : c.Made) : c.Coherent := by
  obtain ⟨hunread, hserved, hmodification⟩ := h.unread_eq
  exact ⟨fun _ => hserved, fun hu => absurd hunread hu, fun hu => absurd hunread hu,
    fun hm => absurd hmodification hm⟩

/-- A channel that has served bytes of its chunk. -/
theorem passed (ho : c.isOpen = true) (hm : c.modification = none) (n : Nat) :
    (c.passed n).Coherent where
  served_eq := by
    unfold Channel.passed
    split
    · exact fun _ => rfl
    · exact fun hu => absurd hu (List.cons_ne_nil _ _)
  isOpen _ := (isOpen_passed c n).trans ho
  unmodified _ := (modification_passed c n).trans hm
  not_ended hmodified := absurd ((modification_passed c n).trans hm) hmodified

/-- A channel without its chunk. -/
theorem of_nil (hu : c.unread = []) (hs : c.served = 0)
    (hm : c.modification ≠ none → c.ended = false) : c.Coherent :=
  ⟨fun _ => hs, fun hne => absurd hu hne, fun hne => absurd hu hne, hm⟩

/-- **Every read leaves the parts together**, also where it fails. -/
theorem readStep {d : Delivery} (h : c.Coherent)
    (step : ReadStep source capacity c s d after s') : after.Coherent := by
  cases step with
  | cutOff _ hu _ => exact of_nil rfl rfl fun hm => absurd (h.unmodified hu) hm
  | served ho hu _ => exact passed ho (h.unmodified hu) _
  | bounded _ hu _ hm _ => exact of_nil hu (h.served_eq hu) fun hmodified => absurd hm hmodified
  | refused answer _ hf =>
    exact of_nil hf.unread_eq (h.served_eq hf.unread_eq) fun _ => hf.not_ended
  | nothing answer _ hf => exact of_nil rfl rfl fun hm => absurd hf.unmodified hm
  | fetched answer _ filled hf _ _ _ hfilled =>
    rw [hfilled]
    exact passed (c := c.withChunk _ _ _) hf.isOpen hf.unmodified _
  | _ => exact h

/-- **Every operation leaves the parts together.** -/
theorem perform (h : c.Coherent) (op : Operation) : (c.perform source op s).2.1.Coherent :=
  perform_preserves (P := fun after _ => after.Coherent)
    (fun _ _ _ _ _ _ h step => h.readStep step) (fun _ _ h => of_nil rfl rfl h.not_ended)
    (fun _ _ _ _ => of_nil rfl rfl fun hm => absurd rfl hm)
    (fun _ _ _ _ => ⟨h.served_eq, h.isOpen, h.unmodified, h.not_ended⟩)
    (fun _ _ => ⟨h.served_eq, h.isOpen, h.unmodified, h.not_ended⟩) h

end Coherent

/-! ## The pointer -/

/-- **A read advances the pointer by the bytes that it gives.** -/
theorem pointer_readStep {d : Delivery} (step : ReadStep source capacity c s d after s') :
    after.pointer = c.pointer + d.written.length := by
  cases step with
  | served => exact pointer_passed c _
  | fetched answer _ filled _ _ _ _ hfilled =>
    subst hfilled
    exact pointer_passed _ _
  | _ => rfl

/-- **A read gives no byte at or beyond the limit**, and no more than there is
room for. -/
theorem written_readStep {d : Delivery} (step : ReadStep source capacity c s d after s') :
    d.written.length ≤ min capacity (c.limit - c.pointer) := by
  cases step with
  | served => exact List.length_take_le _ _
  | fetched answer _ filled _ _ _ _ hfilled =>
    subst hfilled
    exact List.length_take_le _ _
  | _ => exact Nat.zero_le _

/-- **The operations that may take the pointer back**: a move, and closing,
which gives up the chunk. -/
def MovesBack : Operation → Prop
  | .seek _ | .readAndClose _ | .close => True
  | _ => False

/-- **No other operation takes the pointer back.** -/
theorem pointer_le_perform {op : Operation} (hop : ¬ MovesBack op) (c : Channel) (s : σ) :
    c.pointer ≤ (c.perform source op s).2.1.pointer := by
  have hreads : KeptByReads source fun after _ => c.pointer ≤ after.pointer := by
    intro capacity c' s d after s' hle step
    rw [pointer_readStep step]
    omega
  cases op with
  | readInto capacity =>
    rw [perform_readInto]
    exact hreads _ _ _ _ _ _ (Nat.le_refl _) (readInto_step source capacity c s)
  | read size => exact read_preserves hreads size c s (Nat.le_refl _)
  | setLimit target =>
    rw [perform_setLimit]
    unfold setLimit
    cases bound .limit target <;> exact Nat.le_refl _
  | setChunkSize n => exact Nat.le_refl _
  | tell => exact Nat.le_refl _
  | seek target => exact absurd trivial hop
  | readAndClose size => exact absurd trivial hop
  | close => exact absurd trivial hop

/-! ## Runs -/

/-- **A use of a channel**: an operation, or a look at its checkpoint. -/
inductive Use where
  | operate (op : Operation)
  | capture

/-- What a use leaves. A checkpoint is taken without touching the channel. -/
def use (source : Source σ) (c : Channel) (s : σ) : Use → Channel × σ
  | .operate op => (c.perform source op s).2
  | .capture => (c, s)

/-- **What uses leave**, one after the other. -/
def useAll (source : Source σ) : List Use → Channel → σ → Channel × σ
  | [], c, s => (c, s)
  | u :: uses, c, s => useAll source uses (c.use source s u).1 (c.use source s u).2

/-- **The parts of a channel stay together** in every use. -/
theorem Coherent.useAll (h : c.Coherent) (uses : List Use) (s : σ) :
    (Channel.useAll source uses c s).1.Coherent := by
  induction uses generalizing c s with
  | nil => exact h
  | cons u uses ih =>
    cases u with
    | operate op => exact ih (h.perform op) _
    | capture => exact ih h s

end Channel

/-! ## The theorem -/

/-- **What every channel is like**, opened or restored, whatever was done to
it and whatever its source answered. Its offsets and its limit are natural
numbers by their types, and

* its chunks have a size;
* without a chunk nothing of one was served; a chunk that is there is not
  served to its end, and the channel is open and has noticed no change;
* with a change noticed there is neither a chunk nor an end;
* no operation but a move and closing takes the pointer back, and a read
  advances it by the bytes that it gives, none of which is at the limit or
  beyond. -/
theorem coherent_in_use {σ : Type} (source : Source σ) {c : Channel} (hc : c.Made)
    (uses : List Channel.Use) (s : σ) {after : Channel} {t : σ}
    (hrun : Channel.useAll source uses c s = (after, t)) :
    0 < after.chunkSize
      ∧ (after.chunk? = none → after.served = 0)
      ∧ (∀ served size, after.chunk? = some (served, size) →
        served < size ∧ after.isOpen = true ∧ after.modification = none)
      ∧ (after.modification ≠ none → after.chunk? = none ∧ after.ended = false)
      ∧ (∀ op, ¬ Channel.MovesBack op → after.pointer ≤ (after.perform source op t).2.1.pointer)
      ∧ ∀ capacity,
        (after.readInto source capacity t).2.1.pointer
            = after.pointer + (after.readInto source capacity t).1.written.length
          ∧ ∀ i < (after.readInto source capacity t).1.written.length,
            after.pointer + i < after.limit := by
  have hafter : after.Coherent := by
    have h : (Channel.useAll source uses c s).1.Coherent :=
      (Channel.Coherent.of_made hc).useAll uses s
    rw [hrun] at h
    exact h
  refine ⟨after.chunkSize_pos, ?_, ?_, ?_, fun op hop => Channel.pointer_le_perform hop after t, ?_⟩
  · intro hnone
    exact hafter.served_eq (Channel.chunk?_eq_none_iff.mp hnone)
  · intro served size hsome
    obtain ⟨hunread, hlt⟩ := Channel.unread_of_chunk? hsome
    exact ⟨hlt, hafter.isOpen hunread, hafter.unmodified hunread⟩
  · intro hmodified
    -- a chunk that is there would say that nothing was noticed
    have hunread : after.unread = [] :=
      Classical.not_not.mp fun hunread => hmodified (hafter.unmodified hunread)
    exact ⟨Channel.chunk?_eq_none_iff.mpr hunread, hafter.not_ended hmodified⟩
  · intro capacity
    have step := Channel.readInto_step source capacity after t
    have hwritten := Channel.written_readStep step
    refine ⟨Channel.pointer_readStep step, fun i hi => ?_⟩
    omega

/-- Six bytes and their tag. -/
def Source.sixBytes : Fetched := ⟨some "v1", [65, 66, 67, 68, 69, 70]⟩

/-- A source that gives six bytes whatever is asked for. -/
def Source.overfull : Source Unit where
  fetch _ s := (.ok sixBytes, s)
  note _ s := s

theorem coherent_in_use_sample :
    ∃ c after, c.Made ∧ Channel.useAll Source.overfull
          [.operate (.setChunkSize 4), .operate (.readInto 1), .capture] c () = (after, ())
      ∧ after.chunk? = some (1, 4) ∧ after.isOpen = true ∧ after.modification = none
      ∧ ∀ i < (after.readInto Source.overfull 9 ()).1.written.length,
        after.pointer + i < after.limit := by
  obtain ⟨-, -, hchunk, -, -, hreads⟩ := coherent_in_use Source.overfull
    (.opened (rfl : Channel.opened sampleId [] = .ok _))
    [.operate (.setChunkSize 4), .operate (.readInto 1), .capture] () rfl
  exact ⟨_, _, .opened (rfl : Channel.opened sampleId [] = .ok _), rfl, rfl, (hchunk 1 4 rfl).2.1,
    (hchunk 1 4 rfl).2.2, (hreads 9).2⟩

end RangeReader

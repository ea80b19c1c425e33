import RangeReader.Channel.Basic

/-!
# Reading from a channel

`readInto` is the one way bytes leave a channel. It serves bytes of the
present chunk, or makes exactly one fetch – of at least a chunk, and never
past the limit – and serves from that. It gives some bytes, or says that the
read has ended, or fails.

Reading with room for at least one byte always gets somewhere: either the
read is over, or the pointer has moved by the number of bytes given, and not
past the limit (`readInto_bytes`). That is what ends the loops `drain` and
`fill`, whatever the source answers.
-/

namespace RangeReader

/-- **What one read gives.** -/
inductive Delivery where
  /-- Bytes, at the pointer before the read. -/
  | bytes (data : List UInt8)
  /-- Nothing: the end of the object or the limit was reached. -/
  | ended
  /-- Nothing: the read failed. -/
  | failed (fault : Fault)

namespace Channel

/-- The fault of a change of the object. -/
def modified (c : Channel) (m : Modification) : Fault :=
  .modified c.object.text m.expected m.actual

/-- The number of bytes that may go into room for `capacity`: as many, but
none past the limit. -/
def allowance (c : Channel) (capacity : Nat) : Nat := min capacity (c.limit - c.pointer)

/-- A channel after `n` bytes of its chunk. A chunk that is used up is
gone. -/
def passed (c : Channel) (n : Nat) : Channel :=
  match c.unread.drop n with
  | [] => { c with position := c.pointer + (c.unread.take n).length, served := 0, unread := [] }
  | b :: rest => { c with served := c.served + n, unread := b :: rest }

/-- **Serves bytes of the present chunk** into room for `capacity`. -/
def serve (c : Channel) (capacity : Nat) : Delivery × Channel :=
  let n := c.allowance capacity
  (.bytes (c.unread.take n), c.passed n)

/-- The number of bytes to ask for: a chunk or the room there is, whichever
is more, but not past the limit. -/
def wanted (c : Channel) (capacity : Nat) : Nat :=
  min (c.limit - c.pointer) (max capacity c.chunkSize)

/-- The request for the next range. -/
def request (c : Channel) (length : Nat) : RangeRequest :=
  ⟨c.descriptor, c.options, c.pointer, length⟩

/-- Whether fetched bytes are of another content than those before. Without
bytes, or without an earlier tag, there is nothing to compare. -/
def clashes (c : Channel) (etag : Option String) (data : List UInt8) : Bool :=
  !data.isEmpty && c.lastEtag.isSome && etag != c.lastEtag

/-- A channel with a chunk just fetched in answer to a request for `length`
bytes; a short answer is the last one. -/
def withChunk (c : Channel) (length : Nat) (etag : Option String) (data : List UInt8) : Channel :=
  { c with
    position := c.pointer
    served := 0
    unread := data
    ended := data.length < length
    lastEtag := etag }

/-- **Takes the answer to a request** for `length` bytes into room for
`capacity`. Bytes beyond those asked for are dropped. -/
def accept (c : Channel) (capacity length : Nat) (answer : Fetched) : Delivery × Channel :=
  let data := answer.data.take length
  if c.clashes answer.etag data then
    let m : Modification := ⟨c.lastEtag, answer.etag⟩
    (.failed (c.modified m), { c with modification := some m })
  else
    let c := c.withChunk length answer.etag data
    if data.isEmpty then (.ended, c) else c.serve capacity

variable {σ : Type}

/-- The event of a read that failed because the object changed. -/
def noteChange (source : Source σ) (before after : Channel) (s : σ) : σ :=
  match before.modification, after.modification with
  | none, some m => source.note (.modified after.object.text m.expected m.actual) s
  | _, _ => s

/-- **Fetches the next range** and takes the answer. -/
def fetchInto (source : Source σ) (capacity : Nat) (c : Channel) (s : σ) :
    Delivery × Channel × σ :=
  let length := c.wanted capacity
  match source.fetch (c.request length)
    (source.note (.fetching length c.object.text c.pointer) s) with
  | (.error fault, s) => (.failed fault, c, s)
  | (.ok answer, s) =>
    let (delivery, after) := c.accept capacity length answer
    (delivery, after, noteChange source c after s)

/-- **Reads into room for `capacity` bytes.** -/
def readInto (source : Source σ) (capacity : Nat) (c : Channel) (s : σ) :
    Delivery × Channel × σ :=
  if !c.isOpen then (.failed closedFault, c, s)
  else if !c.unread.isEmpty then
    if c.limit ≤ c.pointer then
      (.ended, { c.dropChunk with position := c.pointer, ended := true }, s)
    else
      let (delivery, after) := c.serve capacity
      (delivery, after, s)
  else if c.ended then (.ended, c, s)
  else match c.modification with
    | some m => (.failed (c.modified m), c, s)
    | none =>
      if c.limit ≤ c.pointer then (.ended, { c with ended := true }, s)
      else if capacity = 0 then (.bytes [], c, s)
      else c.fetchInto source capacity s

/-! ## Progress -/

theorem pointer_passed (c : Channel) (n : Nat) :
    (c.passed n).pointer = c.pointer + (c.unread.take n).length := by
  unfold passed
  split
  · rfl
  · rename_i hrest
    have : n < c.unread.length := by
      rw [← Nat.not_le, ← List.drop_eq_nil_iff, hrest]
      exact List.cons_ne_nil _ _
    rw [List.length_take]
    unfold pointer
    simp only
    omega

theorem limit_passed (c : Channel) (n : Nat) : (c.passed n).limit = c.limit := by
  unfold passed
  split <;> rfl

theorem chunkSize_passed (c : Channel) (n : Nat) : (c.passed n).chunkSize = c.chunkSize := by
  unfold passed
  split <;> rfl

theorem isOpen_passed (c : Channel) (n : Nat) : (c.passed n).isOpen = c.isOpen := by
  unfold passed
  split <;> rfl

theorem ended_passed (c : Channel) (n : Nat) : (c.passed n).ended = c.ended := by
  unfold passed
  split <;> rfl

theorem lastEtag_passed (c : Channel) (n : Nat) : (c.passed n).lastEtag = c.lastEtag := by
  unfold passed
  split <;> rfl

theorem modification_passed (c : Channel) (n : Nat) :
    (c.passed n).modification = c.modification := by
  unfold passed
  split <;> rfl

theorem unread_passed (c : Channel) (n : Nat) : (c.passed n).unread = c.unread.drop n := by
  unfold passed
  split <;> rename_i h <;> exact h.symm

/-- What a read that gave bytes has done: the bytes fit, the pointer moved by
their number and not past the limit, and with room for a byte there is at
least one. -/
structure Advance (capacity : Nat) (data : List UInt8) (before after : Channel) : Prop where
  limit_eq : after.limit = before.limit
  chunkSize_eq : after.chunkSize = before.chunkSize
  pointer_eq : after.pointer = before.pointer + data.length
  length_le : data.length ≤ capacity
  pointer_lt : before.pointer < before.limit
  pointer_le : after.pointer ≤ after.limit
  length_pos : 0 < capacity → 0 < data.length

theorem advance_passed (c : Channel) (capacity : Nat) (hu : c.unread ≠ [])
    (hl : c.pointer < c.limit) :
    Advance capacity (c.unread.take (c.allowance capacity)) c
      (c.passed (c.allowance capacity)) where
  limit_eq := limit_passed c _
  chunkSize_eq := chunkSize_passed c _
  pointer_eq := pointer_passed c _
  length_le := by
    rw [List.length_take, allowance]
    omega
  pointer_lt := hl
  pointer_le := by
    rw [pointer_passed, limit_passed, List.length_take, allowance]
    omega
  length_pos := by
    intro hc
    have := List.length_pos_iff.2 hu
    rw [List.length_take, allowance]
    omega

theorem accept_bytes {c after : Channel} {capacity length : Nat} {answer : Fetched}
    {data : List UInt8} (hl : c.pointer < c.limit)
    (h : c.accept capacity length answer = (.bytes data, after)) :
    Advance capacity data c after := by
  unfold accept at h
  simp only at h
  split at h
  · exact absurd h (by simp)
  · split at h
    · exact absurd h (by simp)
    · rename_i hne
      rw [serve, Prod.mk.injEq, Delivery.bytes.injEq] at h
      obtain ⟨rfl, rfl⟩ := h
      have step := advance_passed (c.withChunk length answer.etag (answer.data.take length))
        capacity (by simpa [withChunk] using hne) hl
      exact ⟨step.1, step.2, step.3, step.4, step.5, step.6, step.7⟩

/-- **A read that gives bytes advances.** -/
theorem readInto_bytes {source : Source σ} {capacity : Nat} {c after : Channel} {s s' : σ}
    {data : List UInt8} (hc : 0 < capacity)
    (h : c.readInto source capacity s = (.bytes data, after, s')) :
    Advance capacity data c after := by
  unfold readInto at h
  split at h
  · simp at h
  · split at h
    · rename_i hu
      split at h
      · simp at h
      · rename_i hl
        simp only [serve, Prod.mk.injEq, Delivery.bytes.injEq] at h
        obtain ⟨rfl, rfl, _⟩ := h
        exact advance_passed c capacity (by simpa using hu) (by omega)
    · split at h
      · simp at h
      · split at h
        · simp at h
        · split at h
          · simp at h
          · rename_i hl
            rw [if_neg (by omega)] at h
            unfold fetchInto at h
            simp only at h
            split at h
            · simp at h
            · rename_i answer _ _
              simp only [Prod.mk.injEq] at h
              obtain ⟨hd, ha, _⟩ := h
              have ht : c.accept capacity (c.wanted capacity) answer = (.bytes data, after) :=
                Prod.ext hd ha
              exact accept_bytes (by omega) ht

theorem accept_ended {c after : Channel} {capacity length : Nat} {answer : Fetched}
    (h : c.accept capacity length answer = (.ended, after)) :
    after.limit = c.limit ∧ after.pointer = c.pointer := by
  unfold accept at h
  simp only at h
  split at h
  · simp at h
  · split at h
    · rw [Prod.mk.injEq] at h
      obtain ⟨_, rfl⟩ := h
      exact ⟨rfl, rfl⟩
    · simp [serve] at h

/-- **The end of a read moves nothing.** -/
theorem readInto_ended {source : Source σ} {capacity : Nat} {c after : Channel} {s s' : σ}
    (h : c.readInto source capacity s = (.ended, after, s')) :
    after.limit = c.limit ∧ after.pointer = c.pointer := by
  unfold readInto at h
  split at h
  · simp at h
  · split at h
    · split at h
      · simp only [Prod.mk.injEq] at h
        obtain ⟨_, rfl, _⟩ := h
        exact ⟨rfl, rfl⟩
      · simp [serve] at h
    · split at h
      · simp only [Prod.mk.injEq] at h
        obtain ⟨_, rfl, _⟩ := h
        exact ⟨rfl, rfl⟩
      · split at h
        · simp at h
        · split at h
          · simp only [Prod.mk.injEq] at h
            obtain ⟨_, rfl, _⟩ := h
            exact ⟨rfl, rfl⟩
          · split at h
            · simp at h
            · unfold fetchInto at h
              simp only at h
              split at h
              · simp at h
              · rename_i answer _ _
                simp only [Prod.mk.injEq] at h
                obtain ⟨hd, ha, _⟩ := h
                have ht : c.accept capacity (c.wanted capacity) answer = (.ended, after) :=
                  Prod.ext hd ha
                exact accept_ended ht

/-- A read that gives bytes leaves less to read. -/
theorem Advance.room_lt {capacity : Nat} {data : List UInt8} {c after : Channel}
    (step : Advance capacity data c after) (hc : 0 < capacity) :
    after.limit - after.pointer < c.limit - c.pointer := by
  have := step.limit_eq
  have := step.pointer_eq
  have := step.pointer_lt
  have := step.length_pos hc
  omega

/-! ## Reading more -/

/-- Reads, with room for `capacity` bytes each time, until the read ends. The
pieces read before are given last first. A fault loses what was read. -/
def drain (source : Source σ) (capacity : Nat) (hc : 0 < capacity) (before : List (List UInt8))
    (c : Channel) (s : σ) : Except Fault (List UInt8) × Channel × σ :=
  match h : c.readInto source capacity s with
  | (.bytes data, after, s') =>
    have := (readInto_bytes hc h).room_lt hc
    after.drain source capacity hc (data :: before) s'
  | (.ended, after, s') => (.ok before.reverse.flatten, after, s')
  | (.failed fault, after, s') => (.error fault, after, s')
termination_by c.limit - c.pointer

/-- Reads until `size` bytes are there or the read ends. The pieces read
before are given last first. A fault loses what was read. -/
def fill (source : Source σ) (size : Nat) (before : List (List UInt8)) (c : Channel) (s : σ) :
    Except Fault (List UInt8) × Channel × σ :=
  if hc : 0 < size then
    match h : c.readInto source size s with
    | (.bytes data, after, s') =>
      have := (readInto_bytes hc h).length_pos hc
      after.fill source (size - data.length) (data :: before) s'
    | (.ended, after, s') => (.ok before.reverse.flatten, after, s')
    | (.failed fault, after, s') => (.error fault, after, s')
  else (.ok before.reverse.flatten, c, s)
termination_by size

/-- **Reads `size` bytes**, or fewer at the end; everything up to the end
where `size` is negative. -/
def read (source : Source σ) (size : Int) (c : Channel) (s : σ) :
    Except Fault (List UInt8) × Channel × σ :=
  if !c.isOpen then (.error closedFault, c, s)
  else if size < 0 then c.drain source c.chunkSize c.chunkSize_pos [] s
  else c.fill source size.toNat [] s

/-- **Reads `size` bytes and closes the channel**, also where the read
fails. -/
def readAndClose (source : Source σ) (size : Int) (c : Channel) (s : σ) :
    Except Fault (List UInt8) × Channel × σ :=
  let (result, c, s) := c.read source size s
  (result, c.close, s)

end Channel

end RangeReader

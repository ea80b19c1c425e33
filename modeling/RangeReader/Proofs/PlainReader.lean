import RangeReader.Channel.Operation

/-!
# The plain reader

Someone who holds the content needs no chunks. What is left to remember is an
offset, a limit, and whether the end was already given as an answer: a plain
reader. It is what a channel is meant to look like from outside.

A read into room for several bytes may give fewer of them, so what a plain
reader may answer is a relation, `Step`. Everything else about it is fixed: a
read gives bytes as long as there are any before the limit and the end, and
it gives the very bytes that come next. `read`, which goes on until it has
what it was asked for, is a function again: how the bytes arrive does not
show in it (`read_of_bytes`).
-/

namespace RangeReader

/-- **A plain reader.** -/
structure PlainReader where
  /-- The offset of the next byte. -/
  position : Nat
  /-- The offset that no byte is read at or beyond. -/
  limit : Nat
  /-- Whether the end was given as an answer. It stays so until a move. -/
  ended : Bool
  deriving DecidableEq, Repr

namespace PlainReader

/-- A plain reader at the start, without a limit. -/
def start : PlainReader := ⟨0, unboundedLimit, false⟩

/-- The number of bytes before the limit and the end of the content. -/
def left (data : List UInt8) (r : PlainReader) : Nat := min r.limit data.length - r.position

/-- **Whether there is nothing to read**: the end was given as an answer, or
the pointer is at the limit or the end of the content, or beyond. -/
def AtEnd (data : List UInt8) (r : PlainReader) : Prop :=
  r.ended = true ∨ min r.limit data.length ≤ r.position

/-- The next bytes. -/
def next (data : List UInt8) (r : PlainReader) (count : Nat) : List UInt8 :=
  (data.drop r.position).take count

/-- The reader after some bytes. -/
def advance (r : PlainReader) (count : Nat) : PlainReader :=
  { r with position := r.position + count }

/-- The reader once it has answered that the end is reached. -/
def finished (r : PlainReader) : PlainReader := { r with ended := true }

/-- **Reads `size` bytes**, or fewer where the limit or the end comes first;
everything up to there where `size` is negative. -/
def read (data : List UInt8) (size : Int) (r : PlainReader) : List UInt8 × PlainReader :=
  if size = 0 ∨ r.ended = true then ([], r)
  else if 0 < size ∧ size ≤ r.left data then (r.next data size.toNat, r.advance size.toNat)
  else (r.next data (r.left data), (r.advance (r.left data)).finished)

/-- **What a plain reader may answer**, and how it goes on. -/
inductive Step (data : List UInt8) : Operation → PlainReader → Outcome → PlainReader → Prop where
  /-- Before the end, some of the next bytes, as many as there is room for or
  fewer. -/
  | bytes {r : PlainReader} {capacity count : Nat} (more : ¬ r.AtEnd data) (count_pos : 1 ≤ count)
      (count_le : count ≤ min capacity (r.left data)) :
    Step data (.readInto capacity) r (.delivered (.bytes (r.next data count))) (r.advance count)
  /-- At the end, that it is the end. -/
  | ended {r : PlainReader} {capacity : Nat} (room : 0 < capacity) (atEnd : r.AtEnd data) :
    Step data (.readInto capacity) r (.delivered .ended) r.finished
  /-- Without room, no bytes, where the limit is ahead and no end was
  given. -/
  | noBytes {r : PlainReader} (not_ended : r.ended = false) (position_lt : r.position < r.limit) :
    Step data (.readInto 0) r (.delivered (.bytes [])) r
  /-- Without room, that it is the end, where it is. -/
  | noRoomEnded {r : PlainReader} (atEnd : r.AtEnd data) :
    Step data (.readInto 0) r (.delivered .ended) r.finished
  /-- What `read` gives. -/
  | read (r : PlainReader) (size : Int) :
    Step data (.read size) r (.data (r.read data size).1) (r.read data size).2
  /-- A move, which forgets the end. -/
  | seek (r : PlainReader) (position : Nat) :
    Step data (.seek (.int position)) r .done { r with position := position, ended := false }
  /-- A new limit, which does not. -/
  | setLimit (r : PlainReader) (limit : Nat) :
    Step data (.setLimit (.int limit)) r .done { r with limit := limit }
  /-- Chunks are nothing to a plain reader. -/
  | setChunkSize (r : PlainReader) (n : Int) : Step data (.setChunkSize n) r .done r
  /-- Where it is. -/
  | tell (r : PlainReader) : Step data .tell r (.offset r.position) r

/-- **What a plain reader may answer to operations one after the other.** -/
inductive Runs (data : List UInt8) :
    List Operation → PlainReader → List Outcome → PlainReader → Prop where
  /-- Nothing is asked. -/
  | nil (r : PlainReader) : Runs data [] r [] r
  /-- One operation, and then the others. -/
  | cons {op : Operation} {ops : List Operation} {outcome : Outcome} {outcomes : List Outcome}
      {r r₁ r₂ : PlainReader} (first : Step data op r outcome r₁)
      (others : Runs data ops r₁ outcomes r₂) :
    Runs data (op :: ops) r (outcome :: outcomes) r₂

variable {data : List UInt8} {r : PlainReader}

theorem atEnd_iff_left (hr : r.ended = false) : r.AtEnd data ↔ r.left data = 0 := by
  unfold AtEnd left
  rw [hr]
  simp only [Bool.false_eq_true, false_or]
  omega

/-- With room, bytes are some of the next ones. -/
theorem Step.eq_next {capacity : Nat} {bytes : List UInt8} {r' : PlainReader}
    (hc : 0 < capacity) (step : Step data (.readInto capacity) r (.delivered (.bytes bytes)) r') :
    ∃ count, r.ended = false ∧ 1 ≤ count ∧ count ≤ min capacity (r.left data)
      ∧ bytes = r.next data count ∧ r' = r.advance count := by
  cases step with
  | @bytes _ _ count more count_pos count_le =>
    refine ⟨count, ?_, count_pos, count_le, rfl, rfl⟩
    cases hr : r.ended with
    | false => rfl
    | true => exact absurd (Or.inl hr) more
  | noBytes => exact absurd hc (Nat.lt_irrefl 0)

/-- The end is an answer at the end. -/
theorem Step.atEnd {capacity : Nat} {r' : PlainReader}
    (step : Step data (.readInto capacity) r (.delivered .ended) r') :
    r.AtEnd data ∧ r' = r.finished := by
  cases step with
  | ended _ hend => exact ⟨hend, rfl⟩
  | noRoomEnded hend => exact ⟨hend, rfl⟩

/-- A plain reader does not fail. -/
theorem Step.not_failed {capacity : Nat} {fault : Fault} {r' : PlainReader} :
    ¬ Step data (.readInto capacity) r (.failed fault) r' := nofun

/-! ## Reading all that was asked for -/

/-- Bytes that have come and those that come next. -/
theorem next_append (data : List UInt8) (r : PlainReader) (m n : Nat) :
    r.next data m ++ (r.advance m).next data n = r.next data (m + n) := by
  unfold next advance
  rw [List.take_add, List.drop_drop]

theorem left_advance (data : List UInt8) (r : PlainReader) (count : Nat) :
    (r.advance count).left data = r.left data - count := by
  unfold left advance
  simp only
  omega

theorem length_next {count : Nat} (h : count ≤ r.left data) :
    (r.next data count).length = count := by
  unfold left at h
  rw [next, List.length_take, List.length_drop]
  omega

/-- At the end `read` gives nothing and says that it is the end. -/
theorem read_of_atEnd {size : Int} (hs : size ≠ 0) (h : r.AtEnd data) :
    r.read data size = ([], r.finished) := by
  unfold read
  by_cases he : r.ended = true
  · rw [if_pos (Or.inr he)]
    exact Prod.ext rfl (by unfold finished; rw [← he])
  · have hl : r.left data = 0 := (atEnd_iff_left (by simpa using he)).mp h
    rw [if_neg (by simp [hs, he]), if_neg (by omega), hl]
    rfl

/-- **Bytes that come in between make no difference**: with some of the bytes
read, `read` goes on from there for the others. -/
theorem read_of_bytes {size count : Nat} (hr : r.ended = false)
    (hc : count ≤ min size (r.left data)) :
    r.read data size
      = (r.next data count ++ ((r.advance count).read data (size - count : Nat)).1,
        ((r.advance count).read data (size - count : Nat)).2) := by
  have hr' : (r.advance count).ended = false := hr
  have hl := left_advance data r count
  unfold read
  simp only [hr, hr', Bool.false_eq_true, or_false]
  by_cases h0 : size = 0
  · have : count = 0 := by omega
    subst h0 this
    rfl
  · rw [if_neg (by omega)]
    by_cases hall : size ≤ r.left data
    -- enough bytes: the second read gives what the first one left of `size`
    · rw [if_pos (by omega)]
      by_cases hrest : size - count = 0
      · have : count = size := by omega
        subst this
        rw [if_pos (by omega), Int.toNat_natCast]
        exact Prod.ext (List.append_nil _).symm rfl
      · rw [if_neg (by omega), if_pos (by omega), Int.toNat_natCast, Int.toNat_natCast,
          next_append, show count + (size - count) = size by omega]
        unfold advance
        rw [show r.position + count + (size - count) = r.position + size by omega]
    -- not enough: both go to the end, and both say so
    · rw [if_neg (by omega), if_neg (by omega), if_neg (by omega), hl, next_append,
        show count + (r.left data - count) = r.left data by omega]
      unfold advance
      rw [show r.position + count + (r.left data - count) = r.position + r.left data by omega]

/-- The same for everything up to the end. -/
theorem read_all_of_bytes {size : Int} {count : Nat} (hs : size < 0) (hr : r.ended = false)
    (hc : count ≤ r.left data) :
    r.read data size
      = (r.next data count ++ ((r.advance count).read data size).1,
        ((r.advance count).read data size).2) := by
  have hr' : (r.advance count).ended = false := hr
  unfold read
  simp only [hr, hr', Bool.false_eq_true, or_false]
  rw [if_neg (by omega), if_neg (by omega), if_neg (by omega), if_neg (by omega), left_advance,
    next_append, show count + (r.left data - count) = r.left data by omega]
  unfold advance
  rw [show r.position + count + (r.left data - count) = r.position + r.left data by omega]

end PlainReader

end RangeReader

import RangeReader.Source

/-!
# An object held in memory

The simplest thing behind a source: content and its tag. A range is the part
of the content that lies in it; a range that starts at or past the end has
neither bytes nor a tag.
-/

namespace RangeReader

/-- **An object held in memory.** -/
structure Held where
  /-- The content. -/
  data : List UInt8
  /-- The tag of the content. -/
  etag : Option String
  deriving DecidableEq, Repr

namespace Held

/-- The bytes from `offset` on, at most `length` of them. -/
def slice (h : Held) (offset length : Nat) : List UInt8 := (h.data.drop offset).take length

/-- **The answer to a request.** -/
def answer (h : Held) (request : RangeRequest) : Fetched :=
  if h.data.length ≤ request.offset then ⟨none, []⟩
  else ⟨h.etag, h.slice request.offset request.length⟩

theorem data_answer (h : Held) (request : RangeRequest) :
    (h.answer request).data = (h.data.drop request.offset).take request.length := by
  unfold answer
  split
  · rename_i hle
    rw [List.drop_eq_nil_of_le hle, List.take_nil]
  · rfl

theorem etag_answer (h : Held) (request : RangeRequest) :
    (h.answer request).etag = if h.data.length ≤ request.offset then none else h.etag := by
  unfold answer
  split <;> rfl

/-- An answer with bytes is from before the end, and has the tag. -/
theorem answer_of_data_ne {h : Held} {request : RangeRequest}
    (hne : (h.answer request).data ≠ []) :
    request.offset < h.data.length
      ∧ h.answer request = ⟨h.etag, (h.data.drop request.offset).take request.length⟩ := by
  unfold answer at hne ⊢
  split at hne
  · exact absurd rfl hne
  · rename_i hlt
    rw [if_neg hlt]
    exact ⟨Nat.lt_of_not_le hlt, rfl⟩

/-- **A held object as a source.** It never fails and keeps no journal. -/
def source {σ : Type} (h : Held) : Source σ where
  fetch request s := (.ok (h.answer request), s)
  note _ s := s

end Held

end RangeReader

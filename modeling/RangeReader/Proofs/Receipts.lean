import RangeReader.Proofs.Simulation

/-!
# Receipts

What a channel makes of the answers of its source does not show in its state,
which only knows of the last one. To speak of all of them, the source is
replaced by one that keeps a receipt of each answer (`Source.receipted`). A
channel cannot tell the difference, as the other source only holds more in its
state.

A receipt says whether the answer was refused. The source learns of that as
its journal does, by the event that follows.
-/

namespace RangeReader

/-- **The receipt of an answer.** -/
structure Receipt where
  /-- The tag of the content. -/
  etag : Option String
  /-- The bytes, without those beyond the ones asked for. -/
  data : List UInt8
  /-- Whether the answer was refused. -/
  refused : Bool
  deriving DecidableEq, Repr

/-- The answers whose receipts are kept, the last one first; the last one is
marked as refused. -/
def refuseLast : List Receipt → List Receipt
  | [] => []
  | receipt :: receipts => { receipt with refused := true } :: receipts

/-- **A source that keeps receipts**, the last one first. -/
def Source.receipted {σ : Type} (source : Source σ) : Source (σ × List Receipt) where
  fetch request t :=
    match source.fetch request t.1 with
    | (.error fault, s) => (.error fault, s, t.2)
    | (.ok answer, s) =>
      (.ok answer, s, ⟨answer.etag, answer.data.take request.length, false⟩ :: t.2)
  note event t :=
    (source.note event t.1, match event with
      | .modified .. => refuseLast t.2
      | _ => t.2)

/-- Keeping receipts changes nothing. -/
theorem Source.sees_receipted {σ : Type} (source : Source σ) :
    source.Sees source.receipted Prod.fst where
  fetch request t := by
    unfold Source.receipted
    simp only
    rcases source.fetch request t.1 with ⟨result, s⟩
    cases result <;> rfl
  note _ _ := rfl

namespace Channel

variable {σ : Type} {source : Source σ} {capacity : Nat} {c after : Channel}
variable {t t' : σ × List Receipt}

/-- The receipt of a fetch that was answered. -/
theorem receipts_of_answer {answer : Fetched}
    (ha : c.answered source.receipted capacity t = (.ok answer, t')) :
    t'.2 = ⟨answer.etag, answer.data.take (c.wanted capacity), false⟩ :: t.2 := by
  unfold answered Source.receipted at ha
  simp only at ha
  split at ha
  · cases ha
  · cases ha
    rfl

/-- The receipt of an answer that was refused. -/
theorem receipts_of_refusal {answer : Fetched}
    (ha : c.answered source.receipted capacity t = (.ok answer, t')) (object : String)
    (expected actual : Option String) :
    (source.receipted.note (.modified object expected actual) t').2
      = ⟨answer.etag, answer.data.take (c.wanted capacity), true⟩ :: t.2 := by
  show refuseLast t'.2 = _
  rw [receipts_of_answer ha]
  rfl

/-- A fetch that failed has no receipt. -/
theorem receipts_of_fault {fault : Fault}
    (ha : c.answered source.receipted capacity t = (.error fault, t')) : t'.2 = t.2 := by
  unfold answered Source.receipted at ha
  simp only at ha
  split at ha
  · cases ha
    rfl
  · cases ha

end Channel

end RangeReader

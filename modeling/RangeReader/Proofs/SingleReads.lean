import RangeReader.Channel.Window
import RangeReader.Proofs.ReadStep

/-!
# The single reads of an operation

`read` collects bytes in a loop, and its result does not tell how they came.
Some questions are about the loop all the same: whether one of its reads said
that the end is reached, or how many of them there were. So beside the result
of an operation stands the list of what its single reads gave (`gives`), from
the same recursion.

What one read does to a property that speaks of this list, too, a whole
operation does (`KeptWithGiven`, `read_given`). It is how an invariant is
carried through a loop when it says more than what the channel is like.
-/

namespace RangeReader

namespace Delivery

/-- Whether a delivery says that the end is reached. -/
def isEnd : Delivery → Bool
  | .ended => true
  | _ => false

end Delivery

namespace Channel

variable {σ : Type} {source : Source σ} {c : Channel} {s : σ}

/-! ## What they give -/

/-- What the single reads of `drain` give, one after the other. -/
def drainGives (source : Source σ) (capacity : Nat) (hc : 0 < capacity) (c : Channel) (s : σ) :
    List Delivery :=
  match h : c.readInto source capacity s with
  | (.bytes data, after, s') =>
    have := (readInto_bytes hc h).room_lt hc
    .bytes data :: after.drainGives source capacity hc s'
  | (.ended, _, _) => [.ended]
  | (.failed fault, _, _) => [.failed fault]
termination_by c.limit - c.pointer

/-- What the single reads of `fill` give, one after the other. -/
def fillGives (source : Source σ) (size : Nat) (c : Channel) (s : σ) : List Delivery :=
  if hc : 0 < size then
    match h : c.readInto source size s with
    | (.bytes data, after, s') =>
      have := (readInto_bytes hc h).length_pos hc
      .bytes data :: after.fillGives source (size - data.length) s'
    | (.ended, _, _) => [.ended]
    | (.failed fault, _, _) => [.failed fault]
  else []
termination_by size

/-- What the single reads of `read` give. A closed channel is not read. -/
def readGives (source : Source σ) (size : Int) (c : Channel) (s : σ) : List Delivery :=
  if !c.isOpen then []
  else if size < 0 then c.drainGives source c.chunkSize c.chunkSize_pos s
  else c.fillGives source size.toNat s

/-- **What the single reads of an operation give**, one after the other. -/
def gives (source : Source σ) (op : Operation) (c : Channel) (s : σ) : List Delivery :=
  match op with
  | .readInto capacity => [(c.readInto source capacity s).1]
  | .read size => c.readGives source size s
  | .readAndClose size => c.readGives source size s
  | _ => []

theorem drainGives_of_bytes {capacity : Nat} {hc : 0 < capacity} {data : List UInt8}
    {after : Channel} {s' : σ} (h : c.readInto source capacity s = (.bytes data, after, s')) :
    c.drainGives source capacity hc s = .bytes data :: after.drainGives source capacity hc s' := by
  rw [drainGives]
  split <;> rename_i hr <;> rw [h] at hr <;> cases hr
  rfl

/-- A read that gives no bytes is the last one. -/
theorem drainGives_of_last {capacity : Nat} {hc : 0 < capacity} {d : Delivery} {after : Channel}
    {s' : σ} (h : c.readInto source capacity s = (d, after, s')) (hd : ∀ data, d ≠ .bytes data) :
    c.drainGives source capacity hc s = [d] := by
  rw [drainGives]
  split <;> rename_i hr <;> rw [h] at hr <;> cases hr
  · exact absurd rfl (hd _)
  · rfl
  · rfl

theorem fillGives_of_bytes {size : Nat} {data : List UInt8} {after : Channel} {s' : σ}
    (hc : 0 < size) (h : c.readInto source size s = (.bytes data, after, s')) :
    c.fillGives source size s = .bytes data :: after.fillGives source (size - data.length) s' := by
  rw [fillGives, dif_pos hc]
  split <;> rename_i hr <;> rw [h] at hr <;> cases hr
  rfl

/-- So it is when a number of bytes is wanted. -/
theorem fillGives_of_last {size : Nat} {d : Delivery} {after : Channel} {s' : σ} (hc : 0 < size)
    (h : c.readInto source size s = (d, after, s')) (hd : ∀ data, d ≠ .bytes data) :
    c.fillGives source size s = [d] := by
  rw [fillGives, dif_pos hc]
  split <;> rename_i hr <;> rw [h] at hr <;> cases hr
  · exact absurd rfl (hd _)
  · rfl
  · rfl

theorem fillGives_of_none : c.fillGives source 0 s = [] := by
  rw [fillGives, dif_neg (Nat.lt_irrefl 0)]

/-! ## What is made of it

The bytes of a read are those of its single reads, in order, so the two lists
speak of the same run of the loop. -/

variable {after : Channel} {s' : σ} {bytes : List UInt8}

theorem drain_written {capacity : Nat} {hc : 0 < capacity} {before : List (List UInt8)}
    (h : c.drain source capacity hc before s = (.ok bytes, after, s')) :
    bytes
      = before.reverse.flatten ++ (c.drainGives source capacity hc s).flatMap Delivery.written := by
  fun_induction drainGives source capacity hc c s generalizing before with
  | case1 c s data next t hr _ ih =>
    rw [drain_of_bytes hr] at h
    rw [ih h]
    simp [Delivery.written]
  | case2 c s next t hr =>
    rw [drain_of_ended hr] at h
    cases h
    simp [Delivery.written]
  | case3 c s fault next t hr =>
    rw [drain_of_failed hr] at h
    cases h

theorem fill_written {size : Nat} {before : List (List UInt8)}
    (h : c.fill source size before s = (.ok bytes, after, s')) :
    bytes = before.reverse.flatten ++ (c.fillGives source size s).flatMap Delivery.written := by
  fun_induction fillGives source size c s generalizing before with
  | case1 size c s hc data next t hr _ ih =>
    rw [fill_of_bytes hc hr] at h
    rw [ih h]
    simp [Delivery.written]
  | case2 size c s hc next t hr =>
    rw [fill_of_ended hc hr] at h
    cases h
    simp [Delivery.written]
  | case3 size c s hc fault next t hr =>
    rw [fill_of_failed hc hr] at h
    cases h
  | case4 size c s hc =>
    rw [fill_of_none hc] at h
    cases h
    simp

/-- **A read gives what its single reads gave.** -/
theorem read_written {size : Int} (h : c.read source size s = (.ok bytes, after, s')) :
    bytes = (c.readGives source size s).flatMap Delivery.written := by
  unfold read at h
  unfold readGives
  split at h
  · cases h
  · rename_i ho
    rw [if_neg ho]
    split at h
    · rename_i hneg
      rw [if_pos hneg]
      exact drain_written h
    · rename_i hneg
      rw [if_neg hneg]
      exact fill_written h

/-! ## What they preserve -/

/-- **What single reads preserve**, of a property that speaks of what was given
so far. -/
def KeptWithGiven (source : Source σ) (P : List Delivery → Channel → σ → Prop) : Prop :=
  ∀ (given : List Delivery) (capacity : Nat) (c : Channel) (s : σ) (d : Delivery)
    (after : Channel) (s' : σ),
    P given c s → ReadStep source capacity c s d after s' → P (given ++ [d]) after s'

variable {P : List Delivery → Channel → σ → Prop} {given : List Delivery}

/-- What single reads preserve, draining preserves. -/
theorem drain_given (hP : KeptWithGiven source P) (capacity : Nat) (hc : 0 < capacity)
    (before : List (List UInt8)) (c : Channel) (s : σ) (h : P given c s) :
    P (given ++ c.drainGives source capacity hc s) (c.drain source capacity hc before s).2.1
      (c.drain source capacity hc before s).2.2 := by
  fun_induction drainGives source capacity hc c s generalizing given before with
  | case1 c s data after s' hr _ ih =>
    rw [drain_of_bytes hr, List.append_cons]
    exact ih _ (hP _ _ _ _ _ _ _ h (.of_eq hr))
  | case2 c s after s' hr =>
    rw [drain_of_ended hr]
    exact hP _ _ _ _ _ _ _ h (.of_eq hr)
  | case3 c s fault after s' hr =>
    rw [drain_of_failed hr]
    exact hP _ _ _ _ _ _ _ h (.of_eq hr)

/-- What single reads preserve, filling preserves. -/
theorem fill_given (hP : KeptWithGiven source P) (size : Nat) (before : List (List UInt8))
    (c : Channel) (s : σ) (h : P given c s) :
    P (given ++ c.fillGives source size s) (c.fill source size before s).2.1
      (c.fill source size before s).2.2 := by
  fun_induction fillGives source size c s generalizing given before with
  | case1 size c s hc data after s' hr _ ih =>
    rw [fill_of_bytes hc hr, List.append_cons]
    exact ih _ (hP _ _ _ _ _ _ _ h (.of_eq hr))
  | case2 size c s hc after s' hr =>
    rw [fill_of_ended hc hr]
    exact hP _ _ _ _ _ _ _ h (.of_eq hr)
  | case3 size c s hc fault after s' hr =>
    rw [fill_of_failed hc hr]
    exact hP _ _ _ _ _ _ _ h (.of_eq hr)
  | case4 size c s hc =>
    rw [fill_of_none hc, List.append_nil]
    exact h

/-- **What single reads preserve, `read` preserves.** -/
theorem read_given (hP : KeptWithGiven source P) (size : Int) (c : Channel) (s : σ)
    (h : P given c s) :
    P (given ++ c.readGives source size s) (c.read source size s).2.1
      (c.read source size s).2.2 := by
  unfold readGives read
  split
  · rw [List.append_nil]
    exact h
  · split
    · exact drain_given hP _ _ _ c s h
    · exact fill_given hP _ _ c s h

end Channel

end RangeReader

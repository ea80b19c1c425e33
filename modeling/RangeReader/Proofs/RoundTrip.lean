import RangeReader.Proofs.Echo

/-!
# Checkpoints survive their tokens

A checkpoint that is written as a token and read back is the one that was
written. Checkpoints are compared by what their values denote, and that is
coarser and finer than being the same data: it takes `1` for true and two maps
for equal whatever the order of their entries, but a double that is not a
number is not even equal to itself. So there are two things to say. What is
read back is the same data, with the options and the entries of every map in
the order that they had; and data in which every double is a number, however
deep it is nested, equals itself (`Value.Comparable.same_self`).

What a token has room for is the format's affair: integers of 64 bits, four
bytes for a size, and no nesting beyond what a reader follows
(`Value.Portable`). None of it can be left out. A bucket with a longer name is
not written at all, and a generation that is a flag, which counts as an integer
elsewhere, is written and not read (`not_every_checkpoint_returns`).
-/

namespace RangeReader

/-- A double that is a number is equal to itself. -/
theorem Binary64.compare?_self {x : Binary64} (h : x.isNan = false) :
    x.compare? x = some .eq := by
  unfold isNan at h
  unfold compare?
  cases hx : x.reading with
  | nan =>
    rw [hx] at h
    cases h
  | infinite s => exact congrArg some Std.ReflCmp.compare_self
  | finite s m e =>
    show some (compare (_ : Int) _) = _
    exact congrArg some Std.ReflCmp.compare_self

namespace Value

/-! ## Values that equal themselves -/

/-- **A value in which every double is a number**, at any depth. -/
inductive Comparable : Value → Prop where
  | null : Comparable .null
  | bool (b : Bool) : Comparable (.bool b)
  | int (n : Int) : Comparable (.int n)
  | float {x : Binary64} (isNan_eq : x.isNan = false) : Comparable (.float x)
  | text (s : String) : Comparable (.text s)
  | bytes (b : List UInt8) : Comparable (.bytes b)
  | list {xs : List Value} (items : ∀ x ∈ xs, Comparable x) : Comparable (.list xs)
  | map {entries : List (Value × Value)} (keys : ∀ entry ∈ entries, Comparable entry.1)
      (values : ∀ entry ∈ entries, Comparable entry.2) : Comparable (.map entries)
  | moment (t : Moment) : Comparable (.moment t)
  | extension (type : UInt8) (data : List UInt8) : Comparable (.extension type data)

theorem sameItems_self {items : List Value} (h : ∀ x ∈ items, same x x = true) :
    sameItems items items = true := by
  induction items with
  | nil => rw [sameItems]
  | cons x items ih =>
    rw [sameItems, h x List.mem_cons_self, ih fun y hy => h y (List.mem_cons_of_mem x hy)]
    rfl

/-- Entries that equal themselves have equal ones wherever they occur. -/
theorem sameEntries_of_subset {entries all : List (Value × Value)} (hall : ∀ e ∈ entries, e ∈ all)
    (h : ∀ e ∈ entries, same e.1 e.1 = true ∧ same e.2 e.2 = true) :
    sameEntries entries all = true := by
  induction entries with
  | nil => rw [sameEntries]
  | cons e entries ih =>
    obtain ⟨hkey, hvalue⟩ := h e List.mem_cons_self
    have hany : all.any (fun entry => same e.1 entry.1 && same e.2 entry.2) = true :=
      List.any_eq_true.mpr ⟨e, hall e List.mem_cons_self, by rw [hkey, hvalue]; rfl⟩
    rw [sameEntries, hany, ih (fun f hf => hall f (List.mem_cons_of_mem e hf))
      fun f hf => h f (List.mem_cons_of_mem e hf)]
    rfl

/-- **A value without doubles that are no numbers equals itself.** -/
theorem Comparable.same_self {v : Value} (h : v.Comparable) : v.same v = true := by
  induction h with
  | null => rfl
  | bool b => cases b <;> rfl
  | int n =>
    show (n == n) = true
    exact beq_self_eq_true n
  | float hx =>
    show (Binary64.compare? _ _ == some .eq) = true
    rw [Binary64.compare?_self hx]
    rfl
  | text s =>
    show (s == s) = true
    exact beq_self_eq_true s
  | bytes b =>
    show (b == b) = true
    exact beq_self_eq_true b
  | list _ ih => exact sameItems_self ih
  | map _ _ hkeys hvalues =>
    rw [same, beq_self_eq_true, Bool.true_and]
    exact sameEntries_of_subset (fun _ he => he) fun e he => ⟨hkeys e he, hvalues e he⟩
  | moment t =>
    show (t == t) = true
    exact beq_self_eq_true t
  | extension type data =>
    show (type == type && data == data) = true
    rw [beq_self_eq_true, beq_self_eq_true]
    rfl

end Value

namespace Checkpoint

/-! ## Checkpoints that equal themselves -/

/-- A list equals itself item by item where its items do. -/
theorem all_zip_self {α : Type} {same : α → α → Bool} {xs : List α} :
    ((xs.zip xs).all fun (x, y) => same x y) = true ↔ ∀ x ∈ xs, same x x = true := by
  induction xs with
  | nil => simp
  | cons x xs ih =>
    rw [List.zip_cons_cons, List.all_cons, Bool.and_eq_true, ih, List.forall_mem_cons]

/-- Options equal themselves where their values do. -/
theorem sameOptions_self {options : List ReadOption} :
    sameOptions options options = true ↔ ∀ o ∈ options, o.value.same o.value = true := by
  have hoption (o : ReadOption) : o.same o = o.value.same o.value := by
    show (o.kind == o.kind && o.value.same o.value) = _
    rw [beq_self_eq_true, Bool.true_and]
  unfold sameOptions
  rw [beq_self_eq_true, Bool.true_and, all_zip_self]
  simp only [hoption]

namespace Fits

variable [Nesting] {p : Checkpoint} {content : Content}

/-- The numbers, the flags and the tag of a checkpoint that fits into a token
are comparable. -/
theorem comparable_scalars (hf : p.Fits content) : ∀ v ∈ p.scalars, v.Comparable := by
  have htag : (etagValue content.lastEtag).Comparable := by
    cases content.lastEtag with
    | none => exact .null
    | some tag => exact .text tag
  unfold scalars
  rw [hf.position, hf.isOpen, hf.ended, hf.chunkSize, hf.limit, hf.lastEtag]
  intro v hv
  simp only [List.mem_cons, List.not_mem_nil, or_false] at hv
  rcases hv with rfl | rfl | rfl | rfl | rfl | rfl
  · exact .int _
  · exact .bool _
  · exact .bool _
  · exact .int _
  · exact .int _
  · exact htag

/-- **A checkpoint that fits into a token equals itself**, if the values of its
options do. -/
theorem same_self (hf : p.Fits content)
    (hoptions : ∀ o ∈ p.options, o.value.same o.value = true) : p.same p = true := by
  have hgeneration : p.object.generation.Comparable := by
    rw [hf.generation]
    cases content.generation with
    | none => exact .null
    | some n => exact .int n
  have hobject : p.object.same p.object = true := by
    show (p.object.bucket == p.object.bucket && p.object.name == p.object.name
      && p.object.generation.same p.object.generation) = true
    simp [hgeneration.same_self]
  unfold same
  rw [hobject, sameOptions_self.mpr hoptions,
    all_zip_self.mpr fun v hv => (hf.comparable_scalars v hv).same_self]
  rfl

end Fits

/-! ## Checkpoints that tokens describe -/

/-- **A checkpoint that a token describes.** Its object has an integer
generation or none and its options have comparable values, its position and
its limit are not negative, the size of its chunks is any integer, and the
format has room for all of it: 64 bits for every integer, four bytes for every
size. -/
structure Described [Nesting] (p : Checkpoint) : Prop where
  target : HoldsTarget p.object p.options
  comparable : ∀ o ∈ p.options, o.value.Comparable
  position : ∃ n : Nat, p.position = .int n ∧ IsWord n
  limit : ∃ n : Nat, p.limit = .int n ∧ IsWord n
  chunkSize : ∃ n : Int, p.chunkSize = .int n ∧ IsWord n
  isOpen : ∃ b, p.isOpen = .bool b
  ended : ∃ b, p.ended = .bool b
  lastEtag : ∃ tag : Option String, p.lastEtag = etagValue tag
    ∧ ∀ t, tag = some t → (Text.Utf8.encode t).length < sizeLimit

theorem Described.fits [Nesting] {p : Checkpoint} (h : p.Described) :
    ∃ content, p.Fits content := by
  obtain ⟨generation, hgeneration, hgenerationWord⟩ := h.target.generation_eq
  obtain ⟨position, hposition, hpositionWord⟩ := h.position
  obtain ⟨limit, hlimit, hlimitWord⟩ := h.limit
  obtain ⟨chunkSize, hchunkSize, hchunkSizeWord⟩ := h.chunkSize
  obtain ⟨isOpen, hisOpen⟩ := h.isOpen
  obtain ⟨ended, hended⟩ := h.ended
  obtain ⟨lastEtag, hlastEtag, hlastEtagSize⟩ := h.lastEtag
  refine ⟨⟨p.object.bucket, p.object.name, generation, namedOptions p.options, position, isOpen,
    ended, chunkSize, limit, lastEtag⟩, ?_⟩
  exact {
    bucket := rfl
    bucket_fits := h.target.bucket
    name := rfl
    name_fits := h.target.name
    generation := hgeneration
    generation_fits := hgenerationWord
    options := rfl
    options_fit := ⟨h.target.options_length, h.target.options⟩
    position := hposition
    position_fits := hpositionWord
    isOpen := hisOpen
    ended := hended
    chunkSize := hchunkSize
    chunkSize_fits := hchunkSizeWord
    limit := hlimit
    limit_fits := hlimitWord
    lastEtag := hlastEtag
    lastEtag_fits := hlastEtagSize }

end Checkpoint

/-! ## The theorem -/

/-- **Checkpoints survive their tokens.** A checkpoint that a token describes
has a token, and what is read back from it is the checkpoint itself: the same
data, options in the same order, and equal to it also as checkpoints are
compared. -/
theorem token_round_trip [Nesting] {p : Checkpoint} (h : p.Described) :
    ∃ token, p.token = .ok token ∧ Checkpoint.ofToken token = .ok p ∧ p.same p = true := by
  obtain ⟨content, hfits⟩ := h.fits
  obtain ⟨position, hposition, -⟩ := h.position
  obtain ⟨limit, hlimit, -⟩ := h.limit
  obtain ⟨token, hwrite, hread⟩ := Checkpoint.ofToken_token hfits hposition hlimit
  exact ⟨token, hwrite, hread, hfits.same_self fun o ho => (h.comparable o ho).same_self⟩

/-- One and a half. -/
def oneAndAHalf : Binary64 := ⟨0x3FF8000000000000⟩

/-- A checkpoint with nested values in its options. -/
def sampleCheckpoint : Checkpoint where
  object := sampleId
  options := [
    ⟨.userProject, .map [(.text "b", .list [.float oneAndAHalf, .bytes [7]]), (.int 1, .null)]⟩,
    ⟨.generationMatch, .int (-1)⟩]
  position := .int 3
  isOpen := .bool true
  ended := .bool false
  chunkSize := .int (-5)
  limit := .int 0xFFFFFFFFFFFFFFFF
  lastEtag := .text "v1"

theorem described_sampleCheckpoint : sampleCheckpoint.Described where
  target := by
    refine ⟨by decide, by decide, .inl rfl, by decide, ?_⟩
    show ∀ o ∈ sampleCheckpoint.options, o.value.Portable (992 + 5)
    simp [sampleCheckpoint, Value.Portable, Value.isKey, Value.same, Value.sameScalar,
      Value.asInt?, IsWord]
    decide
  comparable := by
    have hfloat : (Value.float oneAndAHalf).Comparable := .float (by decide)
    have hitems : (Value.list [.float oneAndAHalf, .bytes [7]]).Comparable :=
      .list (by simp [hfloat, Value.Comparable.bytes])
    have hmap : (Value.map [(.text "b", .list [.float oneAndAHalf, .bytes [7]]),
        (.int 1, .null)]).Comparable :=
      .map (by simp [Value.Comparable.text, Value.Comparable.int])
        (by simp [hitems, Value.Comparable.null])
    simp [sampleCheckpoint, hmap, Value.Comparable.int]
  position := ⟨3, rfl, by decide, by decide⟩
  limit := ⟨0xFFFFFFFFFFFFFFFF, rfl, by decide, by decide⟩
  chunkSize := ⟨-5, rfl, by decide, by decide⟩
  isOpen := ⟨true, rfl⟩
  ended := ⟨false, rfl⟩
  lastEtag := ⟨some "v1", rfl, fun t ht => Option.some.inj ht ▸ by decide⟩

theorem token_round_trip_sample :
    ∃ token, sampleCheckpoint.token = .ok token
      ∧ Checkpoint.ofToken token = .ok sampleCheckpoint
      ∧ sampleCheckpoint.same sampleCheckpoint = true :=
  token_round_trip described_sampleCheckpoint

/-- An object whose generation is true. -/
def sampleFlagId : ObjectId := { sampleId with generation := .bool true }

/-- A text of a letter over and over. -/
def letters (n : Nat) : String := String.ofList (List.replicate n 'a')

theorem length_letters (n : Nat) : (Text.Utf8.encode (letters n)).length = n := by
  have hone : (Text.Utf8.encodeChar 'a').length = 1 := by decide
  unfold letters Text.Utf8.encode
  rw [String.toList_ofList]
  induction n with
  | zero => rfl
  | succ n ih =>
    rw [List.replicate_succ, List.flatMap_cons, List.length_append, ih, hone, Nat.add_comm]

/-- An object in a bucket of so long a name. -/
def lettersId (n : Nat) (h : 0 < n) : ObjectId where
  bucket := letters n
  name := "n"
  generation := .null
  bucket_ne := by
    intro hempty
    have hlength := length_letters n
    rw [hempty] at hlength
    exact absurd hlength (Nat.ne_of_lt h)
  name_ne := by decide

/-- **Not every checkpoint returns.** One at the start of an object is written and
refused if the generation is a flag, and it is not written if the bucket has a
name of four gigabytes. -/
theorem not_every_checkpoint_returns :
    (∃ token fault, (Checkpoint.atStart sampleFlagId []).token = .ok token
        ∧ Checkpoint.ofToken token = .error fault)
      ∧ ∃ fault,
        (Checkpoint.atStart (lettersId sizeLimit (by decide)) []).token = .error fault := by
  constructor
  · exact ⟨_, _, rfl, rfl⟩
  · cases h : (Checkpoint.atStart (lettersId sizeLimit (by decide)) []).token with
    | error fault => exact ⟨fault, rfl⟩
    | ok token =>
      obtain ⟨bytes, hbucket⟩ := Checkpoint.written_of_tokenOf h .bucket
      have hlt : (Text.Utf8.encode (letters sizeLimit)).length < sizeLimit :=
        MessagePack.length_of_writeText hbucket
      rw [length_letters] at hlt
      exact absurd hlt (Nat.lt_irrefl _)

end RangeReader

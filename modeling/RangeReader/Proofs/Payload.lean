import RangeReader.ObjectRecord
import RangeReader.Proofs.Bytes
import RangeReader.Proofs.Echo
import RangeReader.Proofs.Numeral

/-!
# The payloads that tell a record

Services do not all write a record in the same way, and its reader takes what they
write: integers as texts, as doubles or as booleans, texts as bytes, nulls for what is
not known, fields that nobody asked for. What it takes is told here by what a value
gives (`GivesText`, `GivesInteger`) and by which fields there are (`Tells`). A payload
is read as a record exactly if it tells that record (`decode_eq_ok_iff`).

What is written is one of these payloads, and has a form that can be seen without a
record (`Canonical`): the fields in their order, only those that are known, each as the
kind of value that it is. The content type is where the two sides are not alike. It is
read under either of two names and written under one of them, so a payload that has the
other name is not the one that is written back.
-/

namespace RangeReader

namespace Binary64

/-! ## Doubles that are integers -/

theorem natAbs_signed (s : Bool) (m : Nat) : (signed s m).natAbs = m := by
  unfold signed
  split
  · rw [Int.natAbs_neg, Int.natAbs_natCast]
  · rw [Int.natAbs_natCast]

theorem signed_mul (s : Bool) (m k : Nat) : signed s m * k = signed s (m * k) := by
  unfold signed
  split
  · rw [Int.neg_mul, Int.natCast_mul]
  · rw [Int.natCast_mul]

/-- An integer is a quotient exactly if nothing remains. -/
theorem signed_eq_mul_iff (s : Bool) (m : Nat) {q : Nat} (hq : 0 < q) (n : Int) :
    signed s m = n * q ↔ m % q = 0 ∧ signed s (m / q) = n := by
  have hexact (h : m % q = 0) : signed s m = signed s (m / q) * q := by
    rw [signed_mul, Nat.div_mul_cancel (Nat.dvd_of_mod_eq_zero h)]
  constructor
  · intro h
    have hmod : m % q = 0 := by
      rw [← natAbs_signed s m, h, Int.natAbs_mul, Int.natAbs_natCast, Nat.mul_mod_left]
    rw [hexact hmod] at h
    exact ⟨hmod, Int.eq_of_mul_eq_mul_right (by omega) h⟩
  · rintro ⟨hmod, rfl⟩
    exact hexact hmod

theorem compareScaled_eq_iff (a e n : Int) :
    compareScaled a e n 0 = .eq
      ↔ a * (2 ^ e.toNat : Nat) = n * (2 ^ (-e).toNat : Nat) := by
  have hleft : (e - min e 0).toNat = e.toNat := by omega
  have hright : (0 - min e 0).toNat = (-e).toNat := by omega
  show compare (a * (2 ^ (e - min e 0).toNat : Nat)) (n * (2 ^ (0 - min e 0).toNat : Nat)) = .eq ↔ _
  rw [hleft, hright, Std.LawfulEqCmp.compare_eq_iff_eq]

/-- **The integer that a double equals** is its integer part, where it has no other. -/
theorem compareInt?_eq_iff (x : Binary64) (n : Int) :
    x.compareInt? n = some .eq ↔ x.truncated? = some n ∧ x.isIntegral = true := by
  unfold compareInt? truncated? isIntegral
  cases x.reading with
  | nan => simp
  | infinite s => cases s <;> simp
  | finite s m e =>
    show some (compareScaled (signed s m) e n 0) = some .eq
      ↔ some (signed s (m * 2 ^ e.toNat / 2 ^ (-e).toNat)) = some n
        ∧ decide (m * 2 ^ e.toNat % 2 ^ (-e).toNat = 0) = true
    rw [Option.some_inj, Option.some_inj, decide_eq_true_iff, compareScaled_eq_iff, signed_mul,
      signed_eq_mul_iff _ _ (Nat.two_pow_pos _), and_comm]

end Binary64

/-! ## Names in a map -/

namespace Value

theorem lookup?_cons (first name : String) (v : Value) (rest : List (Value × Value)) :
    lookup? ((.text first, v) :: rest) name
      = if first = name then some v else lookup? rest name := by
  unfold lookup?
  by_cases h : first = name <;> simp [h]

theorem lookup?_eq_none {entries : List (Value × Value)} {name : String}
    (h : .text name ∉ entries.map Prod.fst) : lookup? entries name = none := by
  unfold lookup?
  rw [Option.map_eq_none_iff, List.find?_eq_none]
  rintro ⟨key, v⟩ hmem hfound
  cases key with
  | text s =>
    cases beq_iff_eq.mp hfound
    exact h (List.mem_map.mpr ⟨_, hmem, rfl⟩)
  | _ => cases hfound

end Value

namespace ObjectRecord

/-! ## What a value gives -/

/-- **The text that a value gives**: itself, or the one that it is the bytes of. -/
inductive GivesText : Value → String → Prop where
  | text (s : String) : GivesText (.text s) s
  | bytes (s : String) : GivesText (.bytes (Text.Utf8.encode s)) s

theorem textOf_eq_ok_iff (v : Value) (s : String) : textOf v = .ok s ↔ GivesText v s := by
  constructor
  · intro h
    unfold textOf at h
    split at h
    · cases h
      exact .text _
    · rw [← Text.Utf8.encode_of_decode (eq_ok_of_mapError h)]
      exact .bytes s
    · cases h
  · intro h
    cases h with
    | text => rfl
    | bytes =>
      rw [textOf, Text.Utf8.decode_encode]
      rfl

/-- **The integer that a value gives**: itself, the number that a boolean is, the one
that equals a double of moderate size, or the one that a text stands for. -/
inductive GivesInteger : Value → Int → Prop where
  | bool (b : Bool) : GivesInteger (.bool b) (if b then 1 else 0)
  | int (n : Int) : GivesInteger (.int n) n
  | double {x : Binary64} {n : Int} (heq : x.compareInt? n = some .eq)
      (hlt : n.natAbs < Binary64.magnitudeModulus) : GivesInteger (.float x) n
  | written {v : Value} {s : String} {n : Int} (htext : GivesText v s)
      (hwrites : IntegerText.Writes s n) : GivesInteger v n

theorem integerOfDouble_eq_ok_iff {x : Binary64} {n : Int} :
    integerOfDouble x = .ok n
      ↔ x.compareInt? n = some .eq ∧ n.natAbs < Binary64.magnitudeModulus := by
  rw [Binary64.compareInt?_eq_iff]
  constructor
  · intro h
    unfold integerOfDouble at h
    split at h
    · cases h
    rename_i htruncated
    split at h
    · cases h
    rename_i hintegral
    split at h
    · rename_i hlt
      cases h
      exact ⟨⟨htruncated, by simpa using hintegral⟩, hlt⟩
    · cases h
  · rintro ⟨⟨htruncated, hintegral⟩, hlt⟩
    unfold integerOfDouble
    rw [htruncated, hintegral]
    exact if_pos hlt

theorem read_mapError_eq_ok_iff {s : String} {n : Int} :
    (IntegerText.read s).mapError textProblem = .ok n ↔ IntegerText.Writes s n :=
  mapError_eq_ok_iff.trans IntegerText.read_eq_ok_iff

theorem integerOf_eq_ok_iff (v : Value) (n : Int) : integerOf v = .ok n ↔ GivesInteger v n := by
  constructor
  · intro h
    unfold integerOf at h
    split at h
    · cases h
      exact .bool _
    · cases h
      exact .int n
    · obtain ⟨heq, hlt⟩ := integerOfDouble_eq_ok_iff.mp h
      exact .double heq hlt
    · exact .written (.text _) (read_mapError_eq_ok_iff.mp h)
    · split at h
      · rename_i s hdecode
        rw [← Text.Utf8.encode_of_decode hdecode]
        exact .written (.bytes s) (read_mapError_eq_ok_iff.mp h)
      · cases h
    · cases h
  · intro h
    cases h with
    | bool | int => rfl
    | double heq hlt => exact integerOfDouble_eq_ok_iff.mpr ⟨heq, hlt⟩
    | written htext hwrites =>
      have hread := read_mapError_eq_ok_iff.mpr hwrites
      cases htext with
      | text => exact hread
      | bytes =>
        rw [integerOf, Text.Utf8.decode_encode]
        exact hread

/-! ## The fields of a payload -/

section Fields

variable {α : Type} {read : Value → Except FieldProblem α} {gives : Value → α → Prop}

/-- **What a field gives that may be missing or null.** Both mean that it is not
known. -/
inductive GivesOptional (gives : Value → α → Prop) : Option Value → Option α → Prop where
  | missing : GivesOptional gives none none
  | null : GivesOptional gives (some .null) none
  | given {v : Value} {a : α} (h : gives v a) : GivesOptional gives (some v) (some a)

theorem optional_eq_ok_iff (hread : ∀ v a, read v = .ok a ↔ gives v a)
    (hnull : ∀ a, ¬gives .null a) {v : Option Value} {a : Option α} :
    optional read v = .ok a ↔ GivesOptional gives v a := by
  constructor
  · intro h
    unfold optional at h
    split at h
    · cases h
      exact .missing
    · cases h
      exact .null
    · rename_i v _
      cases hv : read v with
      | error problem =>
        rw [hv] at h
        cases h
      | ok a =>
        rw [hv] at h
        cases h
        exact .given ((hread v a).mp hv)
  · intro h
    cases h with
    | missing | null => rfl
    | @given v a h =>
      rw [optional, (hread v a).mpr h]
      · rfl
      · rintro rfl
        exact hnull a h

theorem required_eq_ok_iff (hread : ∀ v a, read v = .ok a ↔ gives v a) {v : Option Value} {a : α} :
    required read v = .ok a ↔ ∃ given, v = some given ∧ gives given a := by
  cases v with
  | none => simp [required]
  | some v => simp [required, hread]

end Fields

theorem not_givesText_null (s : String) : ¬GivesText .null s := nofun

theorem not_givesInteger_null (n : Int) : ¬GivesInteger .null n := by
  intro h
  cases h with
  | written htext _ => cases htext

/-- **Entries that tell a record.** Nothing is asked of any other entry. The content
type is told under the name of a payload where that is there, even as null. -/
structure Tells (entries : List (Value × Value)) (r : ObjectRecord) : Prop where
  bucket : ∃ v, Value.lookup? entries "bucket" = some v ∧ GivesText v r.bucket
  name : ∃ v, Value.lookup? entries "name" = some v ∧ GivesText v r.name
  generation : GivesOptional GivesInteger (Value.lookup? entries "generation") r.generation
  metageneration :
    GivesOptional GivesInteger (Value.lookup? entries "metageneration") r.metageneration
  etag : GivesOptional GivesText (Value.lookup? entries "etag") r.etag
  size : GivesOptional GivesInteger (Value.lookup? entries "size") r.size
  contentType : GivesOptional GivesText
    ((Value.lookup? entries "contentType").or (Value.lookup? entries "content_type")) r.contentType

theorem lookup?_contentTypeName (entries : List (Value × Value)) :
    Value.lookup? entries (contentTypeName entries)
      = (Value.lookup? entries "contentType").or (Value.lookup? entries "content_type") := by
  unfold contentTypeName
  cases hwire : Value.lookup? entries "contentType" with
  | some v => simp [hwire]
  | none =>
    cases hother : Value.lookup? entries "content_type" with
    | some v => simp [hother]
    | none => simp [hwire]

theorem optional_textOf_eq_ok_iff {v : Option Value} {s : Option String} :
    optional textOf v = .ok s ↔ GivesOptional GivesText v s :=
  optional_eq_ok_iff textOf_eq_ok_iff not_givesText_null

theorem optional_integerOf_eq_ok_iff {v : Option Value} {n : Option Int} :
    optional integerOf v = .ok n ↔ GivesOptional GivesInteger v n :=
  optional_eq_ok_iff integerOf_eq_ok_iff not_givesInteger_null

theorem required_textOf_eq_ok_iff {v : Option Value} {s : String} :
    required textOf v = .ok s ↔ ∃ given, v = some given ∧ GivesText given s :=
  required_eq_ok_iff textOf_eq_ok_iff

/-- **A payload is read as a record exactly if it tells it.** -/
theorem decode_eq_ok_iff {payload : Value} {r : ObjectRecord} :
    decode payload = .ok r ↔ ∃ entries, payload = .map entries ∧ Tells entries r := by
  constructor
  · intro h
    cases payload with
    | map entries =>
      unfold decode at h
      dsimp only at h
      split at h
      · rename_i bucket name generation metageneration etag size contentType hbucket hname
          hgeneration hmetageneration hetag hsize hcontentType
        cases h
        rw [lookup?_contentTypeName] at hcontentType
        exact ⟨entries, rfl, {
          bucket := required_textOf_eq_ok_iff.mp hbucket
          name := required_textOf_eq_ok_iff.mp hname
          generation := optional_integerOf_eq_ok_iff.mp hgeneration
          metageneration := optional_integerOf_eq_ok_iff.mp hmetageneration
          etag := optional_textOf_eq_ok_iff.mp hetag
          size := optional_integerOf_eq_ok_iff.mp hsize
          contentType := optional_textOf_eq_ok_iff.mp hcontentType }⟩
      · cases h
    | _ => cases h
  · rintro ⟨entries, rfl, h⟩
    unfold decode
    dsimp only
    rw [lookup?_contentTypeName, required_textOf_eq_ok_iff.mpr h.bucket,
      required_textOf_eq_ok_iff.mpr h.name, optional_integerOf_eq_ok_iff.mpr h.generation,
      optional_integerOf_eq_ok_iff.mpr h.metageneration, optional_textOf_eq_ok_iff.mpr h.etag,
      optional_integerOf_eq_ok_iff.mpr h.size, optional_textOf_eq_ok_iff.mpr h.contentType]

/-! ## What is written -/

/-- The names of the fields, in the order of a payload. -/
def fieldNames : List String :=
  ["bucket", "name", "generation", "metageneration", "etag", "size", "contentType"]

/-- The names of the fields that hold an integer. -/
def integerFields : List String := ["generation", "metageneration", "size"]

/-- The names of the fields that hold a text. -/
def textFields : List String := ["bucket", "name", "etag", "contentType"]

/-- What a record has under a name of a field. -/
def field? (r : ObjectRecord) : String → Option Value
  | "bucket" => some (.text r.bucket)
  | "name" => some (.text r.name)
  | "generation" => r.generation.map .int
  | "metageneration" => r.metageneration.map .int
  | "etag" => r.etag.map .text
  | "size" => r.size.map .int
  | "contentType" => r.contentType.map .text
  | _ => none

/-- The entries of some names, those that have a value. -/
def entriesOf (names : List String) (field? : String → Option Value) : List (Value × Value) :=
  names.flatMap fun name => entry? name (field? name)

theorem encode_eq (r : ObjectRecord) : r.encode = .map (entriesOf fieldNames r.field?) := by
  simp [encode, entriesOf, fieldNames, field?, entry?]

theorem lookup?_entriesOf (names : List String) (field? : String → Option Value) (name : String) :
    Value.lookup? (entriesOf names field?) name = if name ∈ names then field? name else none := by
  unfold entriesOf
  induction names with
  | nil => rfl
  | cons first names ih =>
    rw [List.flatMap_cons]
    cases hfirst : field? first with
    | none =>
      show Value.lookup? (names.flatMap _) name = _
      rw [ih]
      by_cases h : first = name
      · subst h
        simp [hfirst]
      · simp [Ne.symm h]
    | some v =>
      show Value.lookup? ((.text first, v) :: names.flatMap _) name = _
      rw [Value.lookup?_cons, ih]
      by_cases h : first = name
      · subst h
        simp [hfirst]
      · simp [h, Ne.symm h]

theorem field?_eq_none (r : ObjectRecord) {name : String} (h : name ∉ fieldNames) :
    r.field? name = none := by
  unfold field?
  split
  case h_8 => rfl
  all_goals exact absurd (by decide) h

/-- **A name has in a payload what it has in the record.** -/
theorem lookup?_encode (r : ObjectRecord) (name : String) :
    Value.lookup? (entriesOf fieldNames r.field?) name = r.field? name := by
  rw [lookup?_entriesOf]
  by_cases h : name ∈ fieldNames
  · rw [if_pos h]
  · rw [if_neg h, r.field?_eq_none h]

theorem givesOptional_map {α : Type} {gives : Value → α → Prop} {f : α → Value}
    (h : ∀ a, gives (f a) a) (a : Option α) : GivesOptional gives (a.map f) a := by
  cases a with
  | none => exact .missing
  | some a => exact .given (h a)

/-- **What is written tells the record** that it was written from. -/
theorem tells_encode (r : ObjectRecord) : Tells (entriesOf fieldNames r.field?) r := by
  constructor <;> simp only [lookup?_encode]
  · exact ⟨_, rfl, .text _⟩
  · exact ⟨_, rfl, .text _⟩
  · exact givesOptional_map .int _
  · exact givesOptional_map .int _
  · exact givesOptional_map .text _
  · exact givesOptional_map .int _
  · show GivesOptional GivesText ((r.contentType.map .text).or none) _
    rw [Option.or_none]
    exact givesOptional_map .text _

theorem decode_encode (r : ObjectRecord) : decode r.encode = .ok r :=
  decode_eq_ok_iff.mpr ⟨_, r.encode_eq, r.tells_encode⟩

/-! ## Canonical payloads -/

/-- **Entries in canonical form**: names of fields only, in their order, with a bucket
and a name, and every field of its kind. So nothing is null, and there is no other name
for the content type. -/
structure Canonical (entries : List (Value × Value)) : Prop where
  keys : (entries.map Prod.fst).Sublist (fieldNames.map .text)
  bucket : Value.lookup? entries "bucket" ≠ none
  name : Value.lookup? entries "name" ≠ none
  integers : ∀ field ∈ integerFields, ∀ v ∈ Value.lookup? entries field, ∃ n, v = .int n
  texts : ∀ field ∈ textFields, ∀ v ∈ Value.lookup? entries field, ∃ s, v = .text s

/-- **Entries are determined by their names**, where these stand in a known order. -/
theorem eq_entriesOf {names : List String} (hnodup : names.Nodup) {entries : List (Value × Value)}
    (h : (entries.map Prod.fst).Sublist (names.map .text)) :
    entries = entriesOf names (Value.lookup? entries) := by
  unfold entriesOf
  induction names generalizing entries with
  | nil =>
    rw [List.map_nil, List.sublist_nil, List.map_eq_nil_iff] at h
    rw [h, List.flatMap_nil]
  | cons first names ih =>
    obtain ⟨hfirst, hnodup⟩ := List.nodup_cons.mp hnodup
    rw [List.flatMap_cons]
    rcases List.sublist_cons_iff.mp h with hrest | ⟨keys, hkeys, hrest⟩
    · have hnone : Value.lookup? entries first = none := by
        refine Value.lookup?_eq_none fun hmem => ?_
        obtain ⟨name, hname, heq⟩ := List.mem_map.mp (hrest.subset hmem)
        cases heq
        exact hfirst hname
      rw [hnone, ← ih hnodup hrest]
      rfl
    · obtain ⟨⟨key, v⟩, rest, rfl, rfl, rfl⟩ := List.map_eq_cons_iff.mp hkeys
      have hothers : ∀ name ∈ names,
          entry? name (Value.lookup? ((.text first, v) :: rest) name)
            = entry? name (Value.lookup? rest name) := by
        intro name hname
        rw [Value.lookup?_cons, if_neg]
        rintro rfl
        exact hfirst hname
      rw [List.flatMap_congr hothers, ← ih hnodup hrest, Value.lookup?_cons, if_pos rfl]
      rfl

/-- The names that are written stand in their order. -/
theorem keys_entriesOf (names : List String) (field? : String → Option Value) :
    ((entriesOf names field?).map Prod.fst).Sublist (names.map .text) := by
  unfold entriesOf
  induction names with
  | nil => exact List.Sublist.slnil
  | cons first names ih =>
    rw [List.flatMap_cons, List.map_append]
    cases field? first with
    | none => exact ih.cons _
    | some v => exact ih.cons_cons _

/-- A field of one kind. -/
theorem exists_map {α : Type} {f : α → Value} {v : Option Value}
    (h : ∀ given ∈ v, ∃ a, given = f a) : ∃ a : Option α, v = a.map f := by
  cases v with
  | none => exact ⟨none, rfl⟩
  | some given =>
    obtain ⟨a, rfl⟩ := h given rfl
    exact ⟨some a, rfl⟩

/-- **The canonical entries are those of the records.** -/
theorem canonical_iff {entries : List (Value × Value)} :
    Canonical entries ↔ ∃ r : ObjectRecord, entries = entriesOf fieldNames r.field? := by
  constructor
  · intro h
    have hinteger {field : String} (hfield : field ∈ integerFields) :=
      exists_map (h.integers field hfield)
    have htext {field : String} (hfield : field ∈ textFields) := exists_map (h.texts field hfield)
    obtain ⟨bucket, hbucket⟩ := htext (by decide : "bucket" ∈ textFields)
    obtain ⟨name, hname⟩ := htext (by decide : "name" ∈ textFields)
    obtain ⟨generation, hgeneration⟩ := hinteger (by decide : "generation" ∈ integerFields)
    obtain ⟨metageneration, hmetageneration⟩ :=
      hinteger (by decide : "metageneration" ∈ integerFields)
    obtain ⟨etag, hetag⟩ := htext (by decide : "etag" ∈ textFields)
    obtain ⟨size, hsize⟩ := hinteger (by decide : "size" ∈ integerFields)
    obtain ⟨contentType, hcontentType⟩ := htext (by decide : "contentType" ∈ textFields)
    obtain ⟨bucket, rfl⟩ : ∃ b, bucket = some b :=
      Option.ne_none_iff_exists'.mp fun hnone => h.bucket (by rw [hbucket, hnone]; rfl)
    obtain ⟨name, rfl⟩ : ∃ b, name = some b :=
      Option.ne_none_iff_exists'.mp fun hnone => h.name (by rw [hname, hnone]; rfl)
    let r : ObjectRecord :=
      ⟨bucket, name, generation, metageneration, etag, size, contentType⟩
    have hfields : ∀ field ∈ fieldNames, Value.lookup? entries field = r.field? field := by
      intro field hfield
      simp only [fieldNames, List.mem_cons, List.not_mem_nil, or_false] at hfield
      rcases hfield with rfl | rfl | rfl | rfl | rfl | rfl | rfl
      · exact hbucket
      · exact hname
      · exact hgeneration
      · exact hmetageneration
      · exact hetag
      · exact hsize
      · exact hcontentType
    refine ⟨r, (eq_entriesOf (by decide) h.keys).trans ?_⟩
    exact List.flatMap_congr fun field hfield => by rw [hfields field hfield]
  · rintro ⟨r, rfl⟩
    refine ⟨keys_entriesOf _ _, ?_, ?_, ?_, ?_⟩ <;> simp only [lookup?_encode]
    · exact Option.some_ne_none _
    · exact Option.some_ne_none _
    · intro field hfield v hv
      simp only [integerFields, List.mem_cons, List.not_mem_nil, or_false] at hfield
      rcases hfield with rfl | rfl | rfl <;>
      · obtain ⟨n, -, rfl⟩ := Option.map_eq_some_iff.mp hv
        exact ⟨n, rfl⟩
    · intro field hfield v hv
      simp only [textFields, List.mem_cons, List.not_mem_nil, or_false] at hfield
      rcases hfield with rfl | rfl | rfl | rfl
      · exact ⟨_, (Option.some.inj hv).symm⟩
      · exact ⟨_, (Option.some.inj hv).symm⟩
      · obtain ⟨s, -, rfl⟩ := Option.map_eq_some_iff.mp hv
        exact ⟨s, rfl⟩
      · obtain ⟨s, -, rfl⟩ := Option.map_eq_some_iff.mp hv
        exact ⟨s, rfl⟩

/-! ## Identities -/

/-- **An identity is described** exactly if its generation gives an integer or is
null. -/
theorem ofObjectId_eq_ok_iff {o : ObjectId} {r : ObjectRecord} :
    ofObjectId o = .ok r
      ↔ ∃ generation, GivesOptional GivesInteger (some o.generation) generation
        ∧ r = ⟨o.bucket, o.name, generation, none, none, none, none⟩ := by
  unfold ofObjectId
  constructor
  · intro h
    split at h
    · rename_i generation hgeneration
      cases h
      exact ⟨generation, optional_integerOf_eq_ok_iff.mp hgeneration, rfl⟩
    · cases h
  · rintro ⟨generation, hgeneration, rfl⟩
    rw [optional_integerOf_eq_ok_iff.mpr hgeneration]

end ObjectRecord

end RangeReader

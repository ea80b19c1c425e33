import RangeReader.Http.Client
import RangeReader.ObjectId
import RangeReader.Proofs.Bytes

/-!
# The URL of an object

The URL of an object is put together from two texts that may be anything, with
separators of their own between them. It stands for one object all the same: a
segment has no slash in it, so the separators are found where they were put,
and a segment is read back as the text that it was made of.

Neither half is enough alone. Segments that are read back could still run into
each other (`segments_unique` is about the slash), and segments without a slash
could stand for several texts (`decode?_encode` goes through UTF-8 byte by byte).
A full stop is kept as it is, so a bucket that is called `..` is written so.
-/

namespace RangeReader

namespace Text.Percent

/-! ## Segments -/

/-- The digits of an escape. -/
def hexDigits : List Char := "0123456789ABCDEF".toList

/-- **Whether a character stands for itself in a segment**: the letters and
digits of ASCII, and four marks. -/
def IsUnreserved (c : Char) : Prop := c.isAlphanum = true ∨ c ∈ ['_', '.', '-', '~']

instance (c : Char) : Decidable (IsUnreserved c) := inferInstanceAs (Decidable (_ ∨ _))

/-- **The characters of one segment of a URL**: unreserved characters and
escapes, which are a percent sign with two digits each. -/
inductive IsSegment : List Char → Prop where
  | nil : IsSegment []
  | unreserved {c : Char} {rest : List Char} (kept : IsUnreserved c) (segment : IsSegment rest) :
    IsSegment (c :: rest)
  | escape {high low : Char} {rest : List Char} (high_mem : high ∈ hexDigits)
      (low_mem : low ∈ hexDigits) (segment : IsSegment rest) :
    IsSegment ('%' :: high :: low :: rest)

/-- **What ends a segment**, or the path that it is in. -/
def delimiters : List Char := ['/', '?', '#']

/-- An unreserved character ends nothing, and is not the sign of an escape. -/
theorem IsUnreserved.notMem {c : Char} (h : IsUnreserved c) : c ∉ '%' :: delimiters := by
  intro hmem
  simp only [delimiters, List.mem_cons, List.not_mem_nil, or_false] at hmem
  rcases hmem with rfl | rfl | rfl | rfl <;> exact absurd h (by decide)

/-- A digit of an escape is unreserved. -/
theorem isUnreserved_of_hexDigit {c : Char} (h : c ∈ hexDigits) : IsUnreserved c := by
  have hall : hexDigits.all (fun c => decide (IsUnreserved c)) = true := by decide
  exact of_decide_eq_true (List.all_eq_true.mp hall c h)

/-- **No character of a segment ends it.** -/
theorem IsSegment.notMem {cs : List Char} (h : IsSegment cs) : ∀ c ∈ cs, c ∉ delimiters := by
  have hkept {c : Char} (hc : IsUnreserved c) : c ∉ delimiters :=
    fun hmem => hc.notMem (List.mem_cons_of_mem _ hmem)
  induction h with
  | nil => exact List.forall_mem_nil _
  | unreserved kept _ ih => exact List.forall_mem_cons.mpr ⟨hkept kept, ih⟩
  | escape high_mem low_mem _ ih =>
    refine List.forall_mem_cons.mpr ⟨by decide, List.forall_mem_cons.mpr ⟨?_, ?_⟩⟩
    · exact hkept (isUnreserved_of_hexDigit high_mem)
    · exact List.forall_mem_cons.mpr ⟨hkept (isUnreserved_of_hexDigit low_mem), ih⟩

/-! ## What is written -/

/-- The digit of a number. -/
theorem hexUpper_mem {n : Nat} (h : n < 16) : hexUpper n ∈ hexDigits :=
  (by decide : ∀ n : Fin 16, hexUpper n ∈ hexDigits) ⟨n, h⟩

/-- The number of a digit. -/
theorem hexValue?_hexUpper {n : Nat} (h : n < 16) : hexValue? (hexUpper n) = some n :=
  (by decide : ∀ n : Fin 16, hexValue? (hexUpper n) = some n.val) ⟨n, h⟩

/-- A byte that stands for itself is an unreserved character, of its own
number. -/
theorem isUnreserved_ofNat {b : UInt8} (h : isUnreserved b = true) :
    IsUnreserved (Char.ofNat b.toNat) ∧ (Char.ofNat b.toNat).toNat = b.toNat
      ∧ b.toNat < 0x80 := by
  have hall : ∀ n : Fin 256, isUnreserved (UInt8.ofNat n) = true →
      IsUnreserved (Char.ofNat n) ∧ (Char.ofNat n).toNat = n.val ∧ n.val < 0x80 := by
    decide +kernel
  have hb := hall ⟨b.toNat, b.toNat_lt⟩
  rw [UInt8.ofNat_toNat] at hb
  exact hb h

/-- **Bytes are written as a segment.** -/
theorem isSegment_flatMap_encodeByte (bytes : List UInt8) :
    IsSegment (bytes.flatMap encodeByte) := by
  induction bytes with
  | nil => exact .nil
  | cons b bytes ih =>
    rw [List.flatMap_cons, encodeByte]
    have hlt := b.toNat_lt
    split
    · rename_i hkept
      exact .unreserved (isUnreserved_ofNat hkept).1 ih
    · exact .escape (hexUpper_mem (by omega)) (hexUpper_mem (by omega)) ih

/-- A character that is no percent sign is read as its byte. -/
theorem decodeBytes?_cons {c : Char} (hc : c ≠ '%') (hascii : c.toNat < 0x80) (rest : List Char) :
    decodeBytes? (c :: rest) = (decodeBytes? rest).map (UInt8.ofNat c.toNat :: ·) := by
  rw [decodeBytes?]
  · rw [if_neg (not_or.mpr ⟨hc, Nat.not_le_of_lt hascii⟩)]
  · rintro _ _ _ rfl
    exact absurd rfl hc

/-- **Bytes are read back from their segment.** -/
theorem decodeBytes?_flatMap_encodeByte (bytes : List UInt8) :
    decodeBytes? (bytes.flatMap encodeByte) = some bytes := by
  induction bytes with
  | nil => rfl
  | cons b bytes ih =>
    rw [List.flatMap_cons, encodeByte]
    have hlt := b.toNat_lt
    split
    · rename_i hkept
      obtain ⟨hchar, hnumber, hascii⟩ := isUnreserved_ofNat hkept
      have hpercent : Char.ofNat b.toNat ≠ '%' := fun h =>
        hchar.notMem (h ▸ List.mem_cons_self)
      rw [List.singleton_append, decodeBytes?_cons hpercent (by omega), ih, hnumber,
        UInt8.ofNat_toNat]
      rfl
    · show decodeBytes? ('%' :: hexUpper _ :: hexUpper _ :: bytes.flatMap encodeByte) = _
      rw [decodeBytes?, hexValue?_hexUpper (by omega), hexValue?_hexUpper (by omega), ih]
      show some (UInt8.ofNat (16 * (b.toNat / 16) + b.toNat % 16) :: bytes) = _
      rw [Nat.div_add_mod, UInt8.ofNat_toNat]

theorem isSegment_encode (s : String) : IsSegment (encode s).toList := by
  rw [encode, String.toList_ofList]
  exact isSegment_flatMap_encodeByte _

/-- **A text is read back from its segment.** -/
theorem decode?_encode (s : String) : decode? (encode s) = some s := by
  rw [decode?, encode, String.toList_ofList, decodeBytes?_flatMap_encodeByte]
  show (Utf8.decode (Utf8.encode s)).toOption = some s
  rw [Utf8.decode_encode]
  rfl

end Text.Percent

/-- A text is split at a slash that has none before it. -/
theorem ObjectId.splitSlash_append {first : List Char} (h : '/' ∉ first) (second : List Char) :
    splitSlash (first ++ '/' :: second) = (first, second) := by
  have hkept : ∀ c ∈ first, decide (c ≠ '/') = true :=
    fun c hc => decide_eq_true fun hslash => h (hslash ▸ hc)
  unfold splitSlash
  rw [List.takeWhile_append_of_pos hkept, List.dropWhile_append_of_pos hkept]
  show (first ++ [], second) = _
  rw [List.append_nil]

namespace Http.Client

open Text.Percent

/-! ## The two segments of a path -/

/-- The URL of two segments. -/
def segmentsUrl (client : Client) (bucket name : String) : String :=
  client.baseUrl ++ "/b/" ++ bucket ++ "/o/" ++ name

/-- **The segments of a URL are found where they are**: the first of them ends
at the first slash. -/
theorem segments_unique {client : Client} {bucket name bucket' name' : String}
    (hb : '/' ∉ bucket.toList) (hb' : '/' ∉ bucket'.toList)
    (h : client.segmentsUrl bucket name = client.segmentsUrl bucket' name') :
    bucket = bucket' ∧ name = name' := by
  have hchars := congrArg String.toList h
  simp only [segmentsUrl, String.toList_append, List.append_assoc, List.append_cancel_left_eq]
    at hchars
  -- the slash of the separator is the first one behind the bucket
  have hsplit := congrArg ObjectId.splitSlash
    (show bucket.toList ++ '/' :: ('o' :: '/' :: name.toList)
      = bucket'.toList ++ '/' :: ('o' :: '/' :: name'.toList) from hchars)
  rw [ObjectId.splitSlash_append hb, ObjectId.splitSlash_append hb'] at hsplit
  injection hsplit with hbucket hrest
  injection hrest with _ hrest
  injection hrest with _ hname
  exact ⟨String.toList_injective hbucket, String.toList_injective hname⟩

/-- **The URL of an object is that of two segments**, one for its bucket and one
for its name. -/
theorem objectUrl_eq (client : Client) (target : ObjectRecord) :
    client.objectUrl target = client.segmentsUrl (encode target.bucket) (encode target.name) :=
  rfl

end Http.Client

/-! ## The theorem -/

open Text.Percent in
/-- **The URL of an object is its own.** Take any base and any bucket and name,
whatever characters are in them.

* Behind the base the URL has two segments, in which every character is
  unreserved or part of an escape, so none of them is a slash, a question mark or
  a number sign. They are read back as the bucket and the name, and there is no
  other way to see the URL as two segments.
* Two objects have the same URL if and only if they have the same bucket and the
  same name. -/
theorem object_urls_apart (client : Http.Client) (target : ObjectRecord) :
    (∃ bucket name, client.objectUrl target = client.baseUrl ++ "/b/" ++ bucket ++ "/o/" ++ name
        ∧ IsSegment bucket.toList ∧ IsSegment name.toList
        ∧ (∀ c ∈ bucket.toList ++ name.toList, c ≠ '/' ∧ c ≠ '?' ∧ c ≠ '#')
        ∧ decode? bucket = some target.bucket ∧ decode? name = some target.name
        ∧ ∀ bucket' name', IsSegment bucket'.toList → IsSegment name'.toList →
          client.objectUrl target = client.baseUrl ++ "/b/" ++ bucket' ++ "/o/" ++ name' →
            bucket' = bucket ∧ name' = name)
      ∧ ∀ other : ObjectRecord, client.objectUrl target = client.objectUrl other
        ↔ target.bucket = other.bucket ∧ target.name = other.name := by
  have hslash {cs : List Char} (h : IsSegment cs) : '/' ∉ cs :=
    fun hmem => h.notMem '/' hmem (by decide)
  refine ⟨⟨encode target.bucket, encode target.name, rfl, isSegment_encode _, isSegment_encode _,
    ?_, decode?_encode _, decode?_encode _, ?_⟩, fun other => ⟨fun hsame => ?_, ?_⟩⟩
  · intro c hc
    have hfree : c ∉ delimiters := (List.mem_append.mp hc).elim
      ((isSegment_encode _).notMem c) ((isSegment_encode _).notMem c)
    simpa [delimiters] using hfree
  · intro bucket' name' hbucket _ hsame
    exact Http.Client.segments_unique (hslash hbucket) (hslash (isSegment_encode _)) hsame.symm
  · obtain ⟨hbucket, hname⟩ := Http.Client.segments_unique (hslash (isSegment_encode _))
      (hslash (isSegment_encode _)) hsame
    -- a text is what its segment is read as
    refine ⟨Option.some.inj ?_, Option.some.inj ?_⟩
    · rw [← decode?_encode target.bucket, hbucket, decode?_encode]
    · rw [← decode?_encode target.name, hname, decode?_encode]
  · rintro ⟨hbucket, hname⟩
    rw [Http.Client.objectUrl_eq, Http.Client.objectUrl_eq, hbucket, hname]

example : Text.Percent.encode "a/b%2F?ü" = "a%2Fb%252F%3F%C3%BC" := by decide +kernel

end RangeReader

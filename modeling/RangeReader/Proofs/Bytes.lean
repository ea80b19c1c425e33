import Mathlib.Algebra.Group.Nat.Defs
import RangeReader.Number.BigEndian
import RangeReader.Text.Utf8

/-!
# Numbers and texts through bytes

What is written as bytes is read back: a number from as many bytes as it
needs, with its sign where it has one, and a text from UTF-8.

For the text the machine is followed character by character. It is between
characters before and after each of them, so the one lemma about a character
(`foldl_encodeChar`) is all that the list of characters needs. Its four cases
are the four lengths; the ranges that a first byte allows for the next one are
there to refuse overlong forms, surrogates and numbers that are too large, and
the proof is that no character runs into them.

The same ranges are why a text has one form only: bytes in which the machine
finds no fault begin with the bytes of a character (`Machine.Clean.first_char`),
so bytes that are read as a text are those of the text.
-/

namespace RangeReader

/-! ## Numbers -/

/-- A number below 256 is the byte made of it. -/
theorem toNat_byte {n : Nat} (h : n < 256) : (UInt8.ofNat n).toNat = n :=
  UInt8.toNat_ofNat_of_lt' h

theorem foldl_bigEndian (width n acc : Nat) :
    (bigEndian width n).foldl (fun n b => n * 256 + b.toNat) acc
      = acc * 256 ^ width + n % 256 ^ width := by
  induction width generalizing acc with
  | zero => simp [bigEndian, Nat.mod_one]
  | succ width ih =>
    have hbyte : (UInt8.ofNat (n / Nat.pow 256 width)).toNat = n / 256 ^ width % 256 :=
      UInt8.toNat_ofNat'
    rw [bigEndian, List.foldl_cons, ih, hbyte, Nat.mod_pow_succ, Nat.pow_succ, Nat.add_mul,
      Nat.mul_assoc, Nat.mul_comm 256, Nat.mul_comm (n / 256 ^ width % 256), Nat.add_assoc,
      Nat.add_comm (n % 256 ^ width)]

/-- **A number is read back** from bytes that have room for it. -/
theorem ofBigEndian_bigEndian {width n : Nat} (h : n < 256 ^ width) :
    ofBigEndian (bigEndian width n) = n := by
  rw [ofBigEndian, foldl_bigEndian, Nat.zero_mul, Nat.zero_add, Nat.mod_eq_of_lt h]

/-- A number with a highest bit that is not set is read back as it is. -/
theorem ofSignedBigEndian_of_nat {width n : Nat} (h : 2 * n < 256 ^ width) :
    ofSignedBigEndian (bigEndian width n) = n := by
  rw [ofSignedBigEndian, ofBigEndian_bigEndian (by omega), length_bigEndian]
  exact if_pos h

/-- A negative number is read back from the bytes of what it lacks to their
range. -/
theorem ofSignedBigEndian_bigEndian {width : Nat} {n : Int} (hn : n < 0)
    (hw : -(2 * n) ≤ (256 ^ width : Nat)) :
    ofSignedBigEndian (bigEndian width (n + (256 ^ width : Nat)).toNat) = n := by
  have hlt : (n + (256 ^ width : Nat)).toNat < 256 ^ width := by omega
  rw [ofSignedBigEndian, ofBigEndian_bigEndian hlt, length_bigEndian]
  show (if 2 * (n + (256 ^ width : Nat)).toNat < 256 ^ width
    then ((n + (256 ^ width : Nat)).toNat : Int)
    else ((n + (256 ^ width : Nat)).toNat : Int) - (256 ^ width : Nat)) = n
  rw [if_neg (by omega)]
  omega

theorem foldl_ofBigEndian_lt (bytes : List UInt8) (acc : Nat) :
    bytes.foldl (fun n b => n * 256 + b.toNat) acc < (acc + 1) * 256 ^ bytes.length := by
  induction bytes generalizing acc with
  | nil => simp
  | cons b bytes ih =>
    have hb : b.toNat < 256 := b.toNat_lt
    calc (b :: bytes).foldl (fun n b => n * 256 + b.toNat) acc
        < (acc * 256 + b.toNat + 1) * 256 ^ bytes.length := ih _
      _ ≤ (acc + 1) * 256 * 256 ^ bytes.length := Nat.mul_le_mul_right _ (by omega)
      _ = (acc + 1) * 256 ^ (b :: bytes).length := by
        rw [List.length_cons, Nat.pow_succ, Nat.mul_assoc, Nat.mul_comm 256]

/-- **Some bytes give a number that they have room for.** -/
theorem ofBigEndian_lt (bytes : List UInt8) : ofBigEndian bytes < 256 ^ bytes.length := by
  have h := foldl_ofBigEndian_lt bytes 0
  rwa [Nat.zero_add, Nat.one_mul] at h

/-- So they do with a sign. -/
theorem ofSignedBigEndian_mem (bytes : List UInt8) :
    -(256 ^ bytes.length : Nat) ≤ 2 * ofSignedBigEndian bytes
      ∧ 2 * ofSignedBigEndian bytes < (256 ^ bytes.length : Nat) := by
  have hlt := ofBigEndian_lt bytes
  have hpow : Nat.pow 256 bytes.length = 256 ^ bytes.length := rfl
  unfold ofSignedBigEndian
  simp only [hpow]
  split <;> omega

/-! ## Texts -/

namespace Text.Utf8

/-- A first byte of two. -/
theorem first_of_two (m : Machine) {b : UInt8} (hlow : 0xC2 ≤ b.toNat) (hhigh : b.toNat < 0xE0) :
    m.first b = { m with
      position := m.position + 1
      pending := some ⟨m.position, b, b.toNat - 0xC0, 1, 1, 0x80, 0xBF⟩ } := by
  unfold Machine.first
  simp only
  rw [if_neg (by omega), if_neg (by omega), if_pos hhigh]

/-- A first byte of three. The next byte has a narrower range after the first
and after the one that leads to surrogates. -/
theorem first_of_three (m : Machine) {b : UInt8} (hlow : 0xE0 ≤ b.toNat)
    (hhigh : b.toNat < 0xF0) :
    m.first b = { m with
      position := m.position + 1
      pending := some ⟨m.position, b, b.toNat - 0xE0, 1, 2,
        if b.toNat = 0xE0 then 0xA0 else 0x80, if b.toNat = 0xED then 0x9F else 0xBF⟩ } := by
  unfold Machine.first
  simp only
  rw [if_neg (by omega), if_neg (by omega), if_neg (by omega)]
  by_cases hfirst : b.toNat = 0xE0
  · rw [if_pos hfirst, if_pos hfirst, if_neg (by omega), hfirst]
  · rw [if_neg hfirst, if_neg hfirst]
    by_cases hsurrogate : b.toNat = 0xED
    · rw [if_pos hsurrogate, if_pos hsurrogate, hsurrogate]
    · rw [if_neg hsurrogate, if_neg hsurrogate, if_pos hhigh]

/-- A first byte of four. The next byte has a narrower range after the first
and after the last. -/
theorem first_of_four (m : Machine) {b : UInt8} (hlow : 0xF0 ≤ b.toNat) (hhigh : b.toNat ≤ 0xF4) :
    m.first b = { m with
      position := m.position + 1
      pending := some ⟨m.position, b, b.toNat - 0xF0, 1, 3,
        if b.toNat = 0xF0 then 0x90 else 0x80, if b.toNat = 0xF4 then 0x8F else 0xBF⟩ } := by
  unfold Machine.first
  simp only
  rw [if_neg (by omega), if_neg (by omega), if_neg (by omega), if_neg (by omega),
    if_neg (by omega), if_neg (by omega)]
  by_cases hfirst : b.toNat = 0xF0
  · rw [if_pos hfirst, if_pos hfirst, if_neg (by omega), hfirst]
  · rw [if_neg hfirst, if_neg hfirst]
    by_cases hlast : b.toNat = 0xF4
    · rw [if_neg (by omega), if_pos hlast, if_pos hlast, hlast]
    · rw [if_pos (by omega), if_neg hlast]

/-- A byte that is owed and not the last one. -/
theorem step_of_more {m : Machine} {p : Partial} (hp : m.pending = some p) {b : UInt8}
    (hlow : p.low ≤ b.toNat) (hhigh : b.toNat ≤ p.high) (ho : p.owed ≠ 1) :
    m.step b = { m with
      position := m.position + 1
      pending := some { p with
        code := p.code * 0x40 + (b.toNat - 0x80)
        length := p.length + 1
        owed := p.owed - 1
        low := 0x80
        high := 0xBF } } := by
  unfold Machine.step
  rw [hp]
  simp only
  rw [if_pos ⟨hlow, hhigh⟩, if_neg ho]

/-- The last byte that is owed. -/
theorem step_of_last {m : Machine} {p : Partial} (hp : m.pending = some p) {b : UInt8}
    (hlow : p.low ≤ b.toNat) (hhigh : b.toNat ≤ p.high) (ho : p.owed = 1) :
    m.step b = ⟨m.position + 1, none,
      .char (Char.ofNat (p.code * 0x40 + (b.toNat - 0x80))) :: m.found⟩ := by
  unfold Machine.step
  rw [hp]
  simp only
  rw [if_pos ⟨hlow, hhigh⟩, if_pos ho]

/-- The bytes after the first carry six bits each. -/
theorem toNat_tail (n shift : Nat) :
    (UInt8.ofNat (0x80 + (n >>> shift) % 0x40)).toNat = 0x80 + n / 2 ^ shift % 0x40 := by
  rw [Nat.shiftRight_eq_div_pow, UInt8.toNat_ofNat']
  omega

/-- **A character is read back**, wherever the machine is between two
characters. -/
theorem foldl_encodeChar (m : Machine) (hm : m.pending = none) (c : Char) :
    (encodeChar c).foldl Machine.step m
      = ⟨m.position + (encodeChar c).length, none, .char c :: m.found⟩ := by
  have hvalid : c.toNat < 0xD800 ∨ 0xDFFF < c.toNat ∧ c.toNat < 0x110000 := c.valid
  have hfirst : ∀ b, m.step b = m.first b := by
    intro b
    unfold Machine.step
    rw [hm]
  have hchar : ∀ n, n = c.toNat → Char.ofNat n = c := by
    rintro n rfl
    exact Char.ofNat_toNat c
  unfold encodeChar
  simp only
  by_cases h1 : c.toNat < 0x80
  · have hb : (UInt8.ofNat c.toNat).toNat = c.toNat := toNat_byte (by omega)
    rw [if_pos h1, List.foldl_cons, List.foldl_nil, hfirst]
    unfold Machine.first
    simp only
    rw [hb, if_pos h1, hchar _ rfl, hm]
    rfl
  · rw [if_neg h1]
    by_cases h2 : c.toNat < 0x800
    · have hb : (UInt8.ofNat (0xC0 + c.toNat / 0x40)).toNat = 0xC0 + c.toNat / 0x40 :=
        toNat_byte (by omega)
      have hb0 := toNat_tail c.toNat 0
      rw [if_pos h2, List.foldl_cons, hfirst, first_of_two m (by omega) (by omega),
        List.foldl_cons, step_of_last rfl (by dsimp only; omega) (by dsimp only; omega) rfl,
        List.foldl_nil, hchar _ (by dsimp only; rw [hb, hb0]; omega)]
      rfl
    · rw [if_neg h2]
      by_cases h3 : c.toNat < 0x10000
      · have hb : (UInt8.ofNat (0xE0 + c.toNat / 0x1000)).toNat = 0xE0 + c.toNat / 0x1000 :=
          toNat_byte (by omega)
        have hb6 := toNat_tail c.toNat 6
        have hb0 := toNat_tail c.toNat 0
        rw [if_pos h3, List.foldl_cons, hfirst, first_of_three m (by omega) (by omega),
          List.foldl_cons, step_of_more rfl (by dsimp only; split <;> omega)
            (by dsimp only; split <;> omega) (by dsimp only; omega),
          List.foldl_cons, step_of_last rfl (by dsimp only; omega) (by dsimp only; omega) rfl,
          List.foldl_nil, hchar _ (by dsimp only; rw [hb, hb6, hb0]; omega)]
        rfl
      · have hb : (UInt8.ofNat (0xF0 + c.toNat / 0x40000)).toNat = 0xF0 + c.toNat / 0x40000 :=
          toNat_byte (by omega)
        have hb12 := toNat_tail c.toNat 12
        have hb6 := toNat_tail c.toNat 6
        have hb0 := toNat_tail c.toNat 0
        rw [if_neg h3, List.foldl_cons, hfirst, first_of_four m (by omega) (by omega),
          List.foldl_cons, step_of_more rfl (by dsimp only; split <;> omega)
            (by dsimp only; split <;> omega) (by dsimp only; omega),
          List.foldl_cons, step_of_more rfl (by dsimp only; omega) (by dsimp only; omega)
            (by dsimp only; omega),
          List.foldl_cons, step_of_last rfl (by dsimp only; omega) (by dsimp only; omega) rfl,
          List.foldl_nil, hchar _ (by dsimp only; rw [hb, hb12, hb6, hb0]; omega)]
        rfl

/-- Characters are read back in order, after the pieces found before. -/
theorem foldl_flatMap_encodeChar (cs : List Char) (m : Machine) (hm : m.pending = none) :
    (cs.flatMap encodeChar).foldl Machine.step m
      = ⟨m.position + (cs.flatMap encodeChar).length, none,
        (cs.map Piece.char).reverse ++ m.found⟩ := by
  induction cs generalizing m with
  | nil => exact congrArg (fun p => Machine.mk m.position p m.found) hm
  | cons c cs ih =>
    rw [List.flatMap_cons, List.foldl_append, foldl_encodeChar m hm, ih _ rfl, List.length_append,
      Nat.add_assoc, List.map_cons, List.reverse_cons, List.append_assoc]
    rfl

theorem charsOf_map_char (cs : List Char) : charsOf (cs.map Piece.char) = .ok cs := by
  induction cs with
  | nil => rfl
  | cons c cs ih =>
    rw [List.map_cons, charsOf, ih]
    rfl

/-- **A text is read back** from its bytes. -/
theorem decode_encode (s : String) : decode (encode s) = .ok s := by
  have hpieces : pieces (encode s) = s.toList.map Piece.char := by
    unfold pieces encode
    rw [foldl_flatMap_encodeChar s.toList Machine.start rfl]
    show ((s.toList.map Piece.char).reverse ++ []).reverse = _
    rw [List.append_nil, List.reverse_reverse]
  rw [decode, hpieces, charsOf_map_char]
  exact congrArg Except.ok String.ofList_toList

/-! ## Bytes that are a text -/

theorem eq_map_char_of_charsOf {pieces : List Piece} {cs : List Char}
    (h : charsOf pieces = .ok cs) : pieces = cs.map Piece.char := by
  induction pieces generalizing cs with
  | nil =>
    cases h
    rfl
  | cons piece pieces ih =>
    cases piece with
    | fault f => cases h
    | char c =>
      unfold charsOf at h
      cases hrest : charsOf pieces with
      | error f =>
        rw [hrest] at h
        cases h
      | ok rest =>
        rw [hrest] at h
        cases h
        rw [ih hrest, List.map_cons]

theorem length_encodeChar_pos (c : Char) : 0 < (encodeChar c).length := by
  unfold encodeChar
  simp only
  repeat' split
  all_goals exact Nat.succ_pos _

/-- **A machine that goes through bytes without a fault.** -/
def Machine.Clean (m : Machine) (bytes : List UInt8) : Prop :=
  ∀ f, Piece.fault f ∉ (bytes.foldl Machine.step m).finish

variable {m : Machine} {b : UInt8} {bytes : List UInt8}

/-- What was found before a first byte is still found. -/
theorem found_subset_first (m : Machine) (b : UInt8) : m.found ⊆ (m.first b).found := by
  unfold Machine.first
  simp only
  repeat' split
  all_goals first
    | exact List.Subset.refl _
    | exact List.subset_cons_self _ _

theorem found_subset_step (m : Machine) (b : UInt8) : m.found ⊆ (m.step b).found := by
  unfold Machine.step
  split
  · exact found_subset_first m b
  · split
    · simp only
      split
      · exact List.subset_cons_self _ _
      · exact List.Subset.refl _
    · refine List.Subset.trans ?_ (found_subset_first _ b)
      exact List.subset_cons_self _ _

/-- A fault is never forgotten. -/
theorem Machine.Clean.not_mem {f : Fault} (h : m.Clean bytes) : .fault f ∉ m.found := by
  intro hf
  refine h f ?_
  have hkept : m.found ⊆ (bytes.foldl Machine.step m).found := by
    clear h hf
    induction bytes generalizing m with
    | nil => exact List.Subset.refl _
    | cons b bytes ih => exact List.Subset.trans (found_subset_step m b) ih
  unfold Machine.finish
  split
  · exact List.mem_reverse.mpr (hkept hf)
  · exact List.mem_reverse.mpr (List.mem_cons_of_mem _ (hkept hf))

/-- **A character that was begun goes on** with a byte of the range that it
allows. -/
theorem Machine.Clean.next {p : Partial} (hp : m.pending = some p) (h : m.Clean bytes) :
    ∃ b rest, bytes = b :: rest ∧ p.low ≤ b.toNat ∧ b.toNat ≤ p.high
      ∧ (m.step b).Clean rest := by
  cases bytes with
  | nil =>
    refine absurd ?_ (h ⟨p.position, p.byte, p.length, .unexpectedEnd⟩)
    rw [List.foldl_nil, Machine.finish, hp]
    exact List.mem_reverse.mpr List.mem_cons_self
  | cons b rest =>
    have hstep : (m.step b).Clean rest := h
    by_cases hrange : p.low ≤ b.toNat ∧ b.toNat ≤ p.high
    · exact ⟨b, rest, rfl, hrange.1, hrange.2, hstep⟩
    · refine absurd ?_
        (hstep.not_mem (f := ⟨p.position, p.byte, p.length, .invalidContinuation⟩))
      unfold Machine.step
      rw [hp]
      simp only
      rw [if_neg hrange]
      exact found_subset_first _ b List.mem_cons_self

/-- A number that is one of a character. -/
theorem toNat_ofNat {n : Nat} (h : n < 0xD800 ∨ 0xDFFF < n ∧ n < 0x110000) :
    (Char.ofNat n).toNat = n := by
  have hvalid : n.isValidChar := h
  unfold Char.ofNat
  rw [dif_pos hvalid]
  rfl

/-- A byte is what its number is. -/
theorem ofNat_eq {n : Nat} (h : n = b.toNat) : UInt8.ofNat n = b := by
  rw [h, UInt8.ofNat_toNat]

theorem tail_eq {n shift : Nat} (h : 0x80 + n / 2 ^ shift % 0x40 = b.toNat) :
    UInt8.ofNat (0x80 + (n >>> shift) % 0x40) = b :=
  ofNat_eq (by rw [Nat.shiftRight_eq_div_pow]; exact h)

/-- A character of two bytes, begun with the first of them. -/
theorem Machine.Clean.of_two (h : (m.first b).Clean bytes) (hlow : 0xC2 ≤ b.toNat)
    (hhigh : b.toNat < 0xE0) : ∃ c rest, b :: bytes = encodeChar c ++ rest := by
  rw [first_of_two m hlow hhigh] at h
  obtain ⟨b1, rest, rfl, hlow1, hhigh1, -⟩ := h.next rfl
  dsimp only at hlow1 hhigh1
  generalize hn : (b.toNat - 0xC0) * 0x40 + (b1.toNat - 0x80) = n
  refine ⟨Char.ofNat n, rest, ?_⟩
  unfold encodeChar
  simp only [toNat_ofNat (n := n) (by omega)]
  rw [if_neg (by omega), if_pos (by omega), ofNat_eq (b := b) (by omega),
    tail_eq (b := b1) (by omega)]
  rfl

/-- A character of three bytes. The range of its second byte keeps it from being
overlong, and from being a surrogate. -/
theorem Machine.Clean.of_three (h : (m.first b).Clean bytes) (hlow : 0xE0 ≤ b.toNat)
    (hhigh : b.toNat < 0xF0) : ∃ c rest, b :: bytes = encodeChar c ++ rest := by
  rw [first_of_three m hlow hhigh] at h
  obtain ⟨b1, rest, rfl, hlow1, hhigh1, h⟩ := h.next rfl
  rw [step_of_more rfl hlow1 hhigh1 (by dsimp only; omega)] at h
  obtain ⟨b2, rest, rfl, hlow2, hhigh2, -⟩ := h.next rfl
  dsimp only at hlow1 hhigh1 hlow2 hhigh2
  have hleast : 0x80 ≤ b1.toNat ∧ (b.toNat = 0xE0 → 0xA0 ≤ b1.toNat) := by
    split at hlow1 <;> omega
  have hgreatest : b1.toNat ≤ 0xBF ∧ (b.toNat = 0xED → b1.toNat ≤ 0x9F) := by
    split at hhigh1 <;> omega
  generalize hn : ((b.toNat - 0xE0) * 0x40 + (b1.toNat - 0x80)) * 0x40 + (b2.toNat - 0x80) = n
  refine ⟨Char.ofNat n, rest, ?_⟩
  unfold encodeChar
  simp only [toNat_ofNat (n := n) (by omega)]
  rw [if_neg (by omega), if_neg (by omega), if_pos (by omega), ofNat_eq (b := b) (by omega),
    tail_eq (b := b1) (by omega), tail_eq (b := b2) (by omega)]
  rfl

/-- A character of four bytes. The range of its second byte keeps it from being
overlong, and from being too large. -/
theorem Machine.Clean.of_four (h : (m.first b).Clean bytes) (hlow : 0xF0 ≤ b.toNat)
    (hhigh : b.toNat ≤ 0xF4) : ∃ c rest, b :: bytes = encodeChar c ++ rest := by
  rw [first_of_four m hlow hhigh] at h
  obtain ⟨b1, rest, rfl, hlow1, hhigh1, h⟩ := h.next rfl
  rw [step_of_more rfl hlow1 hhigh1 (by dsimp only; omega)] at h
  obtain ⟨b2, rest, rfl, hlow2, hhigh2, h⟩ := h.next rfl
  rw [step_of_more rfl hlow2 hhigh2 (by dsimp only; omega)] at h
  obtain ⟨b3, rest, rfl, hlow3, hhigh3, -⟩ := h.next rfl
  dsimp only at hlow1 hhigh1 hlow2 hhigh2 hlow3 hhigh3
  have hleast : 0x80 ≤ b1.toNat ∧ (b.toNat = 0xF0 → 0x90 ≤ b1.toNat) := by
    split at hlow1 <;> omega
  have hgreatest : b1.toNat ≤ 0xBF ∧ (b.toNat = 0xF4 → b1.toNat ≤ 0x8F) := by
    split at hhigh1 <;> omega
  generalize hn : (((b.toNat - 0xF0) * 0x40 + (b1.toNat - 0x80)) * 0x40 + (b2.toNat - 0x80)) * 0x40
    + (b3.toNat - 0x80) = n
  refine ⟨Char.ofNat n, rest, ?_⟩
  unfold encodeChar
  simp only [toNat_ofNat (n := n) (by omega)]
  rw [if_neg (by omega), if_neg (by omega), if_neg (by omega), ofNat_eq (b := b) (by omega),
    tail_eq (b := b1) (by omega), tail_eq (b := b2) (by omega), tail_eq (b := b3) (by omega)]
  rfl

/-- **Bytes without a fault begin with a character.** -/
theorem Machine.Clean.first_char (hm : m.pending = none) (h : m.Clean (b :: bytes)) :
    ∃ c rest, b :: bytes = encodeChar c ++ rest := by
  have hfirst : (m.first b).Clean bytes := by
    have hstep : (m.step b).Clean bytes := h
    unfold Machine.step at hstep
    rwa [hm] at hstep
  by_cases h1 : b.toNat < 0x80
  · refine ⟨Char.ofNat b.toNat, bytes, ?_⟩
    unfold encodeChar
    simp only [toNat_ofNat (n := b.toNat) (by omega)]
    rw [if_pos h1, UInt8.ofNat_toNat]
    rfl
  · by_cases hstart : 0xC2 ≤ b.toNat ∧ b.toNat ≤ 0xF4
    · by_cases h2 : b.toNat < 0xE0
      · exact hfirst.of_two hstart.1 h2
      · by_cases h3 : b.toNat < 0xF0
        · exact hfirst.of_three (by omega) h3
        · exact hfirst.of_four (by omega) hstart.2
    · -- such a byte starts no character
      refine absurd ?_ (hfirst.not_mem (f := ⟨m.position, b, 1, .invalidStart⟩))
      unfold Machine.first
      simp only
      rw [if_neg h1]
      by_cases hlow : b.toNat < 0xC2
      · rw [if_pos hlow]
        exact List.mem_cons_self
      · rw [if_neg (by omega), if_neg (by omega), if_neg (by omega), if_neg (by omega),
          if_neg (by omega), if_neg (by omega), if_neg (by omega), if_neg (by omega)]
        exact List.mem_cons_self

/-- **Bytes without a fault are those of characters.** -/
theorem Machine.Clean.eq_flatMap (hm : m.pending = none) (h : m.Clean bytes) :
    ∃ cs : List Char, bytes = cs.flatMap encodeChar := by
  -- on the number of bytes, of which each character takes some
  induction hlength : bytes.length using Nat.strongRecOn generalizing m bytes with
  | ind n ih =>
    cases bytes with
    | nil => exact ⟨[], rfl⟩
    | cons b bytes =>
      obtain ⟨c, rest, hsplit⟩ := h.first_char hm
      rw [hsplit] at h hlength ⊢
      have hshorter : rest.length < n := by
        have := length_encodeChar_pos c
        rw [List.length_append] at hlength
        omega
      have hrest :
          Machine.Clean ⟨m.position + (encodeChar c).length, none, .char c :: m.found⟩ rest := by
        unfold Machine.Clean at h
        rwa [List.foldl_append, foldl_encodeChar m hm] at h
      obtain ⟨cs, hcs⟩ := ih rest.length hshorter rfl hrest rfl
      exact ⟨c :: cs, by rw [List.flatMap_cons, hcs]⟩

/-- **The bytes of a text are the only ones that are read as it.** -/
theorem encode_of_decode {s : String} (h : decode bytes = .ok s) : encode s = bytes := by
  have hclean : Machine.start.Clean bytes := by
    unfold decode at h
    cases hcs : charsOf (pieces bytes) with
    | error f =>
      rw [hcs] at h
      cases h
    | ok cs =>
      intro f hf
      have hfound : Piece.fault f ∈ cs.map Piece.char := eq_map_char_of_charsOf hcs ▸ hf
      simp at hfound
  obtain ⟨cs, rfl⟩ := hclean.eq_flatMap rfl
  have hencode : encode (String.ofList cs) = cs.flatMap encodeChar := by
    unfold encode
    rw [String.toList_ofList]
  rw [← hencode, decode_encode] at h
  cases h
  exact hencode

end Text.Utf8

end RangeReader

import RangeReader.ReadOption

/-!
# Base 64 is read back

Decoding skips what it does not know and is slow to believe a padding sign, so
there are many texts for a byte string. Of the text that encoding gives it skips
nothing: every character is one of the alphabet, a group of four of them holds
three bytes, and the padding of the last group comes exactly where decoding takes
it for the end. The proof goes over the groups as encoding does.
-/

namespace RangeReader.Text.Base64

variable {n left pads count : Nat} {rest : List Char}

/-! ## Characters -/

/-- **A character of the alphabet** is read as its sextet. It is no padding sign,
and ASCII. -/
theorem sextet?_sextetChar (h : n < 64) :
    sextet? (sextetChar n) = some n ∧ sextetChar n ≠ '=' ∧ (sextetChar n).toNat < 0x80 := by
  have hall : ∀ n : Fin 64, sextet? (sextetChar n) = some n.val ∧ sextetChar n ≠ '='
      ∧ (sextetChar n).toNat < 0x80 := by decide
  exact hall ⟨n, h⟩

/-- A character of the alphabet is not skipped. -/
theorem decodeFrom_sextet (group : Nat) (h : n < 64) :
    decodeFrom group left pads count (sextetChar n :: rest)
      = if group = 0 then decodeFrom 1 n 0 (count + 1) rest
        else if group = 1 then
          (decodeFrom 2 (n % 16) 0 (count + 1) rest).map (UInt8.ofNat (left * 4 + n / 16) :: ·)
        else if group = 2 then
          (decodeFrom 3 (n % 4) 0 (count + 1) rest).map (UInt8.ofNat (left * 16 + n / 4) :: ·)
        else (decodeFrom 0 0 0 (count + 1) rest).map (UInt8.ofNat (left * 64 + n) :: ·) := by
  obtain ⟨hsextet, hpad, -⟩ := sextet?_sextetChar h
  rw [decodeFrom, if_neg hpad, hsextet]

/-- The first character of a group gives no byte yet. -/
theorem decodeFrom_first (h : n < 64) :
    decodeFrom 0 left pads count (sextetChar n :: rest) = decodeFrom 1 n 0 (count + 1) rest :=
  decodeFrom_sextet 0 h

/-- The second one completes a byte. -/
theorem decodeFrom_second (h : n < 64) :
    decodeFrom 1 left pads count (sextetChar n :: rest)
      = (decodeFrom 2 (n % 16) 0 (count + 1) rest).map (UInt8.ofNat (left * 4 + n / 16) :: ·) :=
  decodeFrom_sextet 1 h

/-- So does the third. -/
theorem decodeFrom_third (h : n < 64) :
    decodeFrom 2 left pads count (sextetChar n :: rest)
      = (decodeFrom 3 (n % 4) 0 (count + 1) rest).map (UInt8.ofNat (left * 16 + n / 4) :: ·) :=
  decodeFrom_sextet 2 h

/-- The fourth ends the group. -/
theorem decodeFrom_fourth (h : n < 64) :
    decodeFrom 3 left pads count (sextetChar n :: rest)
      = (decodeFrom 0 0 0 (count + 1) rest).map (UInt8.ofNat (left * 64 + n) :: ·) :=
  decodeFrom_sextet 3 h

/-! ## Texts -/

/-- A byte put together from its bits. -/
theorem ofNat_eq {a : UInt8} (h : n = a.toNat) : UInt8.ofNat n = a := by
  rw [h, UInt8.ofNat_toNat]

/-- **What is encoded is read back**, group by group, however many characters were
read before. -/
theorem decodeFrom_encodeChars (bytes : List UInt8) (count : Nat) :
    decodeFrom 0 0 0 count (encodeChars bytes) = .ok bytes := by
  induction bytes using encodeChars.induct generalizing count with
  | case1 => rfl
  | case2 a =>
    have := a.toNat_lt
    rw [encodeChars, decodeFrom_first (by omega), decodeFrom_second (by omega),
      ofNat_eq (a := a) (by omega)]
    rfl
  | case3 a b =>
    have := a.toNat_lt
    have := b.toNat_lt
    rw [encodeChars, decodeFrom_first (by omega), decodeFrom_second (by omega),
      decodeFrom_third (by omega), ofNat_eq (a := a) (by omega), ofNat_eq (a := b) (by omega)]
    rfl
  | case4 a b c rest ih =>
    have := a.toNat_lt
    have := b.toNat_lt
    have := c.toNat_lt
    rw [encodeChars, decodeFrom_first (by omega), decodeFrom_second (by omega),
      decodeFrom_third (by omega), decodeFrom_fourth (by omega), ofNat_eq (a := a) (by omega),
      ofNat_eq (a := b) (by omega), ofNat_eq (a := c) (by omega), ih]
    rfl

/-- What is encoded is ASCII. -/
theorem isAscii_encodeChars (bytes : List UInt8) : ∀ c ∈ encodeChars bytes, c.toNat < 0x80 := by
  have hsextet {n : Nat} (h : n < 64) : (sextetChar n).toNat < 0x80 := (sextet?_sextetChar h).2.2
  have hpad : ('=' : Char).toNat < 0x80 := by decide
  induction bytes using encodeChars.induct with
  | case1 => exact nofun
  | case2 a =>
    have := a.toNat_lt
    simp only [encodeChars, List.forall_mem_cons]
    exact ⟨hsextet (by omega), hsextet (by omega), hpad, hpad, nofun⟩
  | case3 a b =>
    have := a.toNat_lt
    have := b.toNat_lt
    simp only [encodeChars, List.forall_mem_cons]
    exact ⟨hsextet (by omega), hsextet (by omega), hsextet (by omega), hpad, nofun⟩
  | case4 a b c rest ih =>
    have := a.toNat_lt
    have := b.toNat_lt
    have := c.toNat_lt
    simp only [encodeChars, List.forall_mem_cons]
    exact ⟨hsextet (by omega), hsextet (by omega), hsextet (by omega), hsextet (by omega), ih⟩

theorem toList_encode (bytes : List UInt8) : (encode bytes).toList = encodeChars bytes :=
  String.toList_ofList

/-- **The base 64 text of a byte string is read as the byte string.** -/
theorem decode_encode (bytes : List UInt8) : decode (encode bytes).toList = .ok bytes := by
  rw [toList_encode]
  exact decodeFrom_encodeChars bytes 0

/-- Byte strings have different texts. -/
theorem encode_injective {bytes other : List UInt8} (h : encode bytes = encode other) :
    bytes = other := by
  have hdecode := decode_encode bytes
  rw [h, decode_encode] at hdecode
  exact (Except.ok.inj hdecode).symm

end RangeReader.Text.Base64

import RangeReader.MessagePack.Read
import RangeReader.MessagePack.Write
import RangeReader.Proofs.Bytes

/-!
# MessagePack values are read back

The bytes written for a value are read as that value. Nothing more can hold:
the reader takes any form, the writer has only the shortest one.

`Reads` is what the proofs are about: a reader that stops right behind the
bytes, whatever follows. It goes through sequencing, so the lemma of a
compound item is put together from those of its parts, in the order in which
they are written.

Not every value can travel. The format has no room for an integer beyond 64
bits nor for four gigabytes in one piece, writer and reader go down to a given
depth only, and a map is told apart from a list of entries by its keys, which
must be fit to be keys and different from each other. An extension of the type
that points in time have is read as one. `Value.Portable` says all of this, to a
depth.
-/

namespace RangeReader

/-- **An integer that a token can hold**: from `-2^63` to `2^64 - 1`. -/
def IsWord (n : Int) : Prop := -0x8000000000000000 ≤ n ∧ n < 0x10000000000000000

/-- **A value that can travel**, nested no deeper than `depth`. -/
def Value.Portable : (depth : Nat) → Value → Prop
  | 0, _ => False
  | _ + 1, .null => True
  | _ + 1, .bool _ => True
  | _ + 1, .int n => IsWord n
  | _ + 1, .float _ => True
  | _ + 1, .text s => (Text.Utf8.encode s).length < sizeLimit
  | _ + 1, .bytes b => b.length < sizeLimit
  | _ + 1, .moment _ => True
  | _ + 1, .extension type data => type ≠ MessagePack.Timestamp.typeByte ∧ data.length < sizeLimit
  | depth + 1, .list items => items.length < sizeLimit ∧ ∀ x ∈ items, Portable depth x
  | depth + 1, .map entries =>
    entries.length < sizeLimit
      ∧ (∀ entry ∈ entries, entry.1.isKey = true ∧ Portable depth entry.1 ∧ Portable depth entry.2)
      ∧ entries.Pairwise fun a b => Value.same a.1 b.1 = false

namespace MessagePack

/-! ## Readers that stop where they should -/

/-- **A reader reads a result from bytes**: it takes them and no more, whatever
follows and wherever they stand. -/
def Reads {α : Type} (reader : Reader α) (bytes : List UInt8) (x : α) : Prop :=
  ∀ (offset : Nat) (rest : List UInt8),
    reader ⟨offset, bytes ++ rest⟩ = .ok (x, ⟨offset + bytes.length, rest⟩)

variable {α β : Type}

theorem reads_pure (x : α) : Reads (pure x) [] x := fun _ _ => rfl

/-- Bytes are read one part after the other. -/
theorem Reads.bind {reader : Reader α} {next : α → Reader β} {first second : List UInt8} {x : α}
    {y : β} (hx : Reads reader first x) (hy : Reads (next x) second y) :
    Reads (reader >>= next) (first ++ second) y := by
  intro offset rest
  show (reader ⟨offset, (first ++ second) ++ rest⟩ >>= fun p => next p.1 p.2) = _
  rw [List.append_assoc, hx offset (second ++ rest)]
  show next x ⟨offset + first.length, second ++ rest⟩ = _
  rw [hy, List.length_append, Nat.add_assoc]

/-- A part without bytes comes last. -/
theorem Reads.bind_pure {reader : Reader α} {next : α → Reader β} {bytes : List UInt8} {x : α}
    {y : β} (hx : Reads reader bytes x) (hy : Reads (next x) [] y) :
    Reads (reader >>= next) bytes y := by
  have h := hx.bind hy
  rw [List.append_nil] at h
  exact h

theorem Reads.map {reader : Reader α} {bytes : List UInt8} {x : α} (f : α → β)
    (hx : Reads reader bytes x) : Reads (f <$> reader) bytes (f x) := by
  intro offset rest
  show (reader ⟨offset, bytes ++ rest⟩ >>= fun p => pure (f p.1, p.2)) = _
  rw [hx]
  rfl

theorem reads_readByte (b : UInt8) : Reads readByte [b] b := fun _ _ => rfl

theorem reads_takeBytes {bytes : List UInt8} {n : Nat} (h : bytes.length = n) :
    Reads (takeBytes n) bytes bytes := by
  intro offset rest
  unfold takeBytes
  simp only [List.splitAt_eq, List.take_left' h, List.drop_left' h, h, Nat.lt_irrefl, if_false]

theorem reads_readNat {width n : Nat} (h : n < 256 ^ width) :
    Reads (readNat width) (bigEndian width n) n := by
  have hread := (reads_takeBytes (length_bigEndian width n)).map ofBigEndian
  rw [ofBigEndian_bigEndian h] at hread
  exact hread

theorem reads_readSigned {width : Nat} {n : Int} (hn : n < 0)
    (hw : -(2 * n) ≤ (256 ^ width : Nat)) :
    Reads (readSigned width) (bigEndian width (n + (256 ^ width : Nat)).toNat) n := by
  have hread := (reads_takeBytes (length_bigEndian width (n + (256 ^ width : Nat)).toNat)).map
    ofSignedBigEndian
  rw [ofSignedBigEndian_bigEndian hn hw] at hread
  exact hread

/-! ## Heads -/

/-- A head is read by what its opcode starts. -/
theorem reads_readHead {opcode : UInt8} {reader : Reader Head} {bytes : List UInt8} {head : Head}
    (ho : headOf? opcode.toNat = some reader) (hr : Reads reader bytes head) :
    Reads readHead (opcode :: bytes) head := by
  intro offset rest
  have hstart : readHead ⟨offset, opcode :: (bytes ++ rest)⟩
      = reader ⟨offset + 1, bytes ++ rest⟩ := by
    simp only [readHead, readByte, bind, StateT.bind, Except.bind, get, getThe, MonadStateOf.get,
      StateT.get, pure, Except.pure, ho]
  show readHead ⟨offset, opcode :: (bytes ++ rest)⟩ = _
  rw [hstart, hr, List.length_cons, Nat.add_assoc, Nat.add_comm 1]

/-- A head that is its opcode alone. -/
theorem reads_opcode {n : Nat} {head : Head} (hn : n < 256)
    (ho : headOf? n = some (pure head)) : Reads readHead [UInt8.ofNat n] head :=
  reads_readHead (by rw [toNat_byte hn]; exact ho) (reads_pure head)

theorem reads_null : Reads readHead [0xC0] .null := reads_readHead rfl (reads_pure Head.null)

theorem reads_bool (b : Bool) : Reads readHead [if b then 0xC3 else 0xC2] (.bool b) := by
  cases b with
  | false => exact reads_readHead rfl (reads_pure (Head.bool false))
  | true => exact reads_readHead rfl (reads_pure (Head.bool true))

/-- **An integer in range is written, and read back.** -/
theorem reads_int {n : Int} (h : IsWord n) :
    ∃ bytes, writeInt n = .ok bytes ∧ Reads readHead bytes (.int n) := by
  obtain ⟨hlow, hhigh⟩ := h
  unfold writeInt
  simp only
  -- the widths are tried as the writer tries them, the shortest first
  by_cases hn : 0 ≤ n
  · have hcast : (n.toNat : Int) = n := Int.toNat_of_nonneg hn
    have hnat {width : Nat} (hw : n.toNat < 256 ^ width) :
        Reads ((fun m : Int => Head.int m) <$> do let m ← readNat width; pure (m : Int))
          (bigEndian width n.toNat) (.int n) := by
      have hread : Reads (do let m ← readNat width; pure (m : Int)) (bigEndian width n.toNat)
          (n.toNat : Int) :=
        (reads_readNat hw).bind_pure (reads_pure _)
      rw [hcast] at hread
      exact hread.map Head.int
    rw [if_pos hn]
    by_cases h7 : n.toNat < 0x80
    · rw [if_pos h7]
      refine ⟨_, rfl, reads_opcode (by omega) ?_⟩
      unfold headOf?
      rw [if_pos h7, hcast]
    · rw [if_neg h7]
      by_cases h8 : n.toNat < 0x100
      · rw [if_pos h8]
        exact ⟨_, rfl, reads_readHead rfl (hnat h8)⟩
      · rw [if_neg h8]
        by_cases h16 : n.toNat < 0x10000
        · rw [if_pos h16]
          exact ⟨_, rfl, reads_readHead rfl (hnat h16)⟩
        · rw [if_neg h16]
          by_cases h32 : n.toNat < 0x100000000
          · rw [if_pos h32]
            exact ⟨_, rfl, reads_readHead rfl (hnat h32)⟩
          · rw [if_neg h32, if_pos (by omega)]
            exact ⟨_, rfl, reads_readHead rfl (hnat (by omega))⟩
  · have hneg : n < 0 := by omega
    have hsigned (width : Nat) (hw : -(2 * n) ≤ (256 ^ width : Nat)) :
        Reads (Head.int <$> readSigned width) (bigEndian width (n + (256 ^ width : Nat)).toNat)
          (.int n) :=
      (reads_readSigned hneg hw).map Head.int
    rw [if_neg hn]
    by_cases h5 : -0x20 ≤ n
    · rw [if_pos h5]
      refine ⟨_, rfl, reads_opcode (by omega) ?_⟩
      unfold headOf?
      rw [if_neg (by omega), if_neg (by omega), if_neg (by omega), if_neg (by omega),
        if_pos (by omega), show (((n + 0x100).toNat : Int) - 0x100) = n by omega]
    · rw [if_neg h5]
      by_cases h8 : -0x80 ≤ n
      · rw [if_pos h8]
        exact ⟨_, rfl, reads_readHead rfl (hsigned 1 (by omega))⟩
      · rw [if_neg h8]
        by_cases h16 : -0x8000 ≤ n
        · rw [if_pos h16]
          exact ⟨_, rfl, reads_readHead rfl (hsigned 2 (by omega))⟩
        · rw [if_neg h16]
          by_cases h32 : -0x80000000 ≤ n
          · rw [if_pos h32]
            exact ⟨_, rfl, reads_readHead rfl (hsigned 4 (by omega))⟩
          · rw [if_neg h32, if_pos hlow]
            exact ⟨_, rfl, reads_readHead rfl (hsigned 8 (by omega))⟩

/-- A size below a power of 256, behind the opcode for sizes of that width. -/
theorem reads_size {opcode : UInt8} {width size : Nat} {head : Nat → Head}
    (ho : headOf? opcode.toNat = some (head <$> readNat width)) (hs : size < 256 ^ width) :
    Reads readHead (opcode :: bigEndian width size) (head size) :=
  reads_readHead ho ((reads_readNat hs).map head)

theorem reads_textHead {size : Nat} (h : size < sizeLimit) :
    Reads readHead (textHead size) (.text size) := by
  unfold textHead
  by_cases h5 : size < 32
  · rw [if_pos h5]
    refine reads_opcode (by omega) ?_
    unfold headOf?
    rw [if_neg (by omega), if_neg (by omega), if_neg (by omega), if_pos (by omega),
      Nat.add_sub_cancel_left]
  · rw [if_neg h5]
    by_cases h8 : size < 0x100
    · rw [if_pos h8]
      exact reads_size rfl h8
    · rw [if_neg h8]
      by_cases h16 : size < 0x10000
      · rw [if_pos h16]
        exact reads_size rfl h16
      · rw [if_neg h16]
        exact reads_size rfl h

theorem reads_bytesHead {size : Nat} (h : size < sizeLimit) :
    Reads readHead (bytesHead size) (.bytes size) := by
  unfold bytesHead
  by_cases h8 : size < 0x100
  · rw [if_pos h8]
    exact reads_size rfl h8
  · rw [if_neg h8]
    by_cases h16 : size < 0x10000
    · rw [if_pos h16]
      exact reads_size rfl h16
    · rw [if_neg h16]
      exact reads_size rfl h

theorem reads_listHead {count : Nat} (h : count < sizeLimit) :
    Reads readHead (listHead count) (.list count) := by
  unfold listHead
  by_cases h4 : count < 16
  · rw [if_pos h4]
    refine reads_opcode (by omega) ?_
    unfold headOf?
    rw [if_neg (by omega), if_neg (by omega), if_pos (by omega), Nat.add_sub_cancel_left]
  · rw [if_neg h4]
    by_cases h16 : count < 0x10000
    · rw [if_pos h16]
      exact reads_size rfl h16
    · rw [if_neg h16]
      exact reads_size rfl h

theorem reads_mapHead {count : Nat} (h : count < sizeLimit) :
    Reads readHead (mapHead count) (.map count) := by
  unfold mapHead
  by_cases h4 : count < 16
  · rw [if_pos h4]
    refine reads_opcode (by omega) ?_
    unfold headOf?
    rw [if_neg (by omega), if_pos (by omega), Nat.add_sub_cancel_left]
  · rw [if_neg h4]
    by_cases h16 : count < 0x10000
    · rw [if_pos h16]
      exact reads_size rfl h16
    · rw [if_neg h16]
      exact reads_size rfl h

theorem reads_extensionHead {size : Nat} (h : size < sizeLimit) :
    Reads readHead (extensionHead size) (.extension size) := by
  unfold extensionHead
  by_cases h1 : size = 1
  · subst h1
    exact reads_readHead rfl (reads_pure (Head.extension 1))
  by_cases h2 : size = 2
  · subst h2
    exact reads_readHead rfl (reads_pure (Head.extension 2))
  by_cases h4 : size = 4
  · subst h4
    exact reads_readHead rfl (reads_pure (Head.extension 4))
  by_cases h8 : size = 8
  · subst h8
    exact reads_readHead rfl (reads_pure (Head.extension 8))
  by_cases h16 : size = 16
  · subst h16
    exact reads_readHead rfl (reads_pure (Head.extension 16))
  rw [if_neg h1, if_neg h2, if_neg h4, if_neg h8, if_neg h16]
  by_cases hbyte : size < 0x100
  · rw [if_pos hbyte]
    exact reads_size rfl hbyte
  · rw [if_neg hbyte]
    by_cases hword : size < 0x10000
    · rw [if_pos hword]
      exact reads_size rfl hword
    · rw [if_neg hword]
      exact reads_size rfl h

/-! ## Texts -/

theorem reads_textBody (s : String) :
    Reads (textBody (Text.Utf8.encode s).length) (Text.Utf8.encode s) s := by
  refine (reads_takeBytes rfl).bind_pure ?_
  rw [Text.Utf8.decode_encode]
  exact reads_pure s

/-! ## Points in time -/

namespace Timestamp

variable {bytes : List UInt8}

theorem ofBytes?_of_four (h : bytes.length = 4) : ofBytes? bytes = some ⟨ofBigEndian bytes, 0⟩ := by
  unfold ofBytes?
  rw [h]
  rfl

theorem ofBytes?_of_eight (h : bytes.length = 8) :
    ofBytes? bytes
      = some ⟨(ofBigEndian bytes : Int) % 0x400000000, ofBigEndian bytes / 0x400000000⟩ := by
  unfold ofBytes?
  rw [h]
  rfl

theorem ofBytes?_of_twelve (h : bytes.length = 12) :
    ofBytes? bytes = some ⟨ofSignedBigEndian (bytes.drop 4), ofBigEndian (bytes.take 4)⟩ := by
  unfold ofBytes?
  rw [h]
  rfl

/-- **A timestamp is read from its bytes**, where its nanoseconds are below a
second and its seconds fit into eight bytes. -/
theorem ofBytes?_toBytes {t : Timestamp} (hn : t.nanoseconds < 1000000000)
    (hlow : -0x8000000000000000 ≤ t.seconds) (hhigh : t.seconds < 0x8000000000000000) :
    ofBytes? t.toBytes = some t := by
  obtain ⟨seconds, nanoseconds⟩ := t
  dsimp only at hn hlow hhigh
  unfold toBytes
  dsimp only
  by_cases hshort : 0 ≤ seconds ∧ seconds < 0x400000000
  · obtain ⟨hnonneg, hlt⟩ := hshort
    have hseconds : (seconds.toNat : Int) = seconds := Int.toNat_of_nonneg hnonneg
    rw [if_pos ⟨hnonneg, hlt⟩]
    by_cases hfour : nanoseconds * 0x400000000 + seconds.toNat < 0x100000000
    · -- so small a number has no nanoseconds in it
      obtain rfl : nanoseconds = 0 := by omega
      rw [if_pos hfour, ofBytes?_of_four (length_bigEndian 4 _), ofBigEndian_bigEndian hfour,
        Nat.zero_mul, Nat.zero_add, hseconds]
    · have hpacked : nanoseconds * 0x400000000 + seconds.toNat < 256 ^ 8 := by omega
      rw [if_neg hfour, ofBytes?_of_eight (length_bigEndian 8 _), ofBigEndian_bigEndian hpacked,
        show ((nanoseconds * 0x400000000 + seconds.toNat : Nat) : Int) % 0x400000000 = seconds by
          omega,
        show (nanoseconds * 0x400000000 + seconds.toNat) / 0x400000000 = nanoseconds by omega]
  · have htwelve (n : Nat) : (bigEndian 4 nanoseconds ++ bigEndian 8 n).length = 12 := by
      rw [List.length_append, length_bigEndian, length_bigEndian]
    rw [if_neg hshort, ofBytes?_of_twelve (htwelve _),
      List.drop_left' (length_bigEndian 4 nanoseconds),
      List.take_left' (length_bigEndian 4 nanoseconds), ofBigEndian_bigEndian (by omega)]
    by_cases hnonneg : 0 ≤ seconds
    · rw [if_pos hnonneg, ofSignedBigEndian_of_nat (by omega), Int.toNat_of_nonneg hnonneg]
    · rw [if_neg hnonneg]
      have hsigned : ofSignedBigEndian (bigEndian 8 (seconds + (256 ^ 8 : Nat)).toNat) = seconds :=
        ofSignedBigEndian_bigEndian (by omega) (by omega)
      rw [show (0x10000000000000000 : Int) = (256 ^ 8 : Nat) from rfl, hsigned]

/-- **A point in time is read from its bytes.** -/
theorem moment_toBytes (m : Moment) : moment (ofMoment m).toBytes = .ok m := by
  have hfirst := m.first_le
  have hend := m.lt_end
  have hnanoseconds : (ofMoment m).nanoseconds < 1000000000 := by
    show (m.micros % 1000000).toNat * 1000 < 1000000000
    omega
  have hrange : ¬ ((ofMoment m).seconds < first ∨ yearAfterLast < (ofMoment m).seconds) := by
    show ¬ (m.micros / 1000000 < -62135596800 ∨ 253402300800 < m.micros / 1000000)
    omega
  have hmicros : (ofMoment m).micros = m.micros := by
    show m.micros / 1000000 * 1000000 + (((m.micros % 1000000).toNat * 1000 + 500) / 1000 : Nat)
      = m.micros
    omega
  have hyear : ¬ yearAfterLast * 1000000 ≤ (ofMoment m).micros := by
    rw [hmicros]
    show ¬ (253402300800 * 1000000 : Int) ≤ m.micros
    omega
  have hbytes : ofBytes? (ofMoment m).toBytes = some (ofMoment m) := by
    unfold first yearAfterLast at hrange
    exact ofBytes?_toBytes hnanoseconds (by omega) (by omega)
  unfold moment
  rw [hbytes]
  dsimp only
  rw [if_neg (by omega), dif_neg hrange, dif_neg hyear]
  exact congrArg Except.ok (Moment.mk.injEq .. ▸ hmicros)

/-- The bytes of a timestamp are few. -/
theorem length_toBytes_lt (t : Timestamp) : t.toBytes.length < sizeLimit := by
  have htwelve : 12 < sizeLimit := by decide
  refine Nat.lt_of_le_of_lt ?_ htwelve
  unfold toBytes
  dsimp only
  repeat' split
  all_goals simp

end Timestamp

/-! ## Items one after the other -/

/-- Collecting reads the items in order, behind those collected before. -/
theorem reads_collect_cons {item : Nat → Reader α} {left i : Nat} {before : List α} {x : α}
    {xs : List α} {first second : List UInt8} (hx : Reads (item i) first x)
    (hxs : Reads (collect item left (i + 1) (x :: before)) second xs) :
    Reads (collect item (left + 1) i before) (first ++ second) xs :=
  hx.bind hxs

/-- **Things written one after the other are read one after the other**, wherever
they stand. -/
theorem reads_all {γ ι : Type} (write : γ → Except NoRoom (List UInt8))
    (item : ι → Nat → Reader α) (f : γ → α) (xs : List γ)
    (h : ∀ x ∈ xs, ∃ bytes, write x = .ok bytes ∧ ∀ p i, Reads (item p i) bytes (f x)) :
    ∃ body, writeAll write xs = .ok body ∧ ∀ (p : ι) (i : Nat) (before : List α),
      Reads (collect (item p) xs.length i before) body (before.reverse ++ xs.map f) := by
  induction xs with
  | nil =>
    refine ⟨[], rfl, fun p i before => ?_⟩
    rw [List.map_nil, List.append_nil]
    exact reads_pure _
  | cons x xs ih =>
    obtain ⟨first, hfirst, hreads⟩ := h x List.mem_cons_self
    obtain ⟨body, hbody, hcollect⟩ := ih fun y hy => h y (List.mem_cons_of_mem x hy)
    refine ⟨first ++ body, ?_, fun p i before => ?_⟩
    · rw [writeAll, hfirst, hbody]
      rfl
    · have hrest := hcollect p (i + 1) (f x :: before)
      rw [List.reverse_cons, List.append_assoc] at hrest
      exact reads_collect_cons (hreads p i) hrest

/-- Things are written one after the other as what they are made into. -/
theorem writeAll_map {γ δ : Type} (write : δ → Except NoRoom (List UInt8)) (f : γ → δ)
    (xs : List γ) : writeAll write (xs.map f) = writeAll (fun x => write (f x)) xs := by
  induction xs with
  | nil => rfl
  | cons x xs ih =>
    rw [List.map_cons, writeAll, ih]
    rfl

/-- Entries with different keys, put one after the other, stay as they are. -/
theorem foldl_put_of_pairwise (entries before : List (Value × Value))
    (h : (before ++ entries).Pairwise fun a b => Value.same a.1 b.1 = false) :
    entries.foldl (fun map (k, v) => Value.put map k v) before = before ++ entries := by
  induction entries generalizing before with
  | nil => exact (List.append_nil before).symm
  | cons entry entries ih =>
    have hput : ∀ (rest : List (Value × Value)),
        (∀ e ∈ rest, Value.same e.1 entry.1 = false) →
          Value.put rest entry.1 entry.2 = rest ++ [entry] := by
      intro rest
      induction rest with
      | nil => exact fun _ => rfl
      | cons e rest ih =>
        intro hrest
        rw [Value.put, if_neg (by rw [hrest e List.mem_cons_self]; decide),
          ih fun e' he' => hrest e' (List.mem_cons_of_mem e he')]
        rfl
    have hbefore : ∀ e ∈ before, Value.same e.1 entry.1 = false := fun e he =>
      (List.pairwise_append.mp h).2.2 e he entry List.mem_cons_self
    -- the entry goes to the end of those before it, as its key is new
    rw [List.append_cons] at h ⊢
    rw [List.foldl_cons]
    show entries.foldl _ (Value.put before entry.1 entry.2) = _
    rw [hput before hbefore]
    exact ih _ h

/-- Entries with different keys are those of their map. -/
theorem mapOf_of_pairwise (entries : List (Value × Value))
    (h : entries.Pairwise fun a b => Value.same a.1 b.1 = false) :
    mapOf entries = .map entries :=
  congrArg Value.map (foldl_put_of_pairwise entries [] h)

/-! ## Values -/

variable {depth : Nat}

theorem writeValue_text {s : String} (h : (Text.Utf8.encode s).length < sizeLimit) :
    writeValue (depth + 1) (.text s) = .ok (writeText s) := by
  rw [writeValue, checkSize_ok _ h]
  rfl

theorem writeValue_bytes {b : List UInt8} (h : b.length < sizeLimit) :
    writeValue (depth + 1) (.bytes b) = .ok (bytesHead b.length ++ b) := by
  rw [writeValue, checkSize_ok _ h]
  rfl

theorem writeValue_list {items : List Value} {body : List UInt8} (h : items.length < sizeLimit)
    (hbody : writeAll (writeValue depth) items = .ok body) :
    writeValue (depth + 1) (.list items) = .ok (listHead items.length ++ body) := by
  rw [writeValue, checkSize_ok _ h, hbody]
  rfl

theorem writeValue_map {entries : List (Value × Value)} {body : List UInt8}
    (h : entries.length < sizeLimit)
    (hbody : writeAll (writeEntry (writeValue depth)) entries = .ok body) :
    writeValue (depth + 1) (.map entries) = .ok (mapHead entries.length ++ body) := by
  rw [writeValue, checkSize_ok _ h, hbody]
  rfl

theorem writeValue_extension {type : UInt8} {data : List UInt8} (h : data.length < sizeLimit) :
    writeValue (depth + 1) (.extension type data) = .ok (writeExtension type data) := by
  rw [writeValue, checkSize_ok _ h]
  rfl

/-- **A value is written, and read back** down to a depth. -/
def Travels (depth : Nat) (v : Value) : Prop :=
  ∃ bytes, writeValue depth v = .ok bytes ∧ ∀ place, Reads (readValue depth place) bytes v

/-- An entry of a map travels where its key is fit to be one. -/
theorem reads_entry {e : Value × Value} (hkey : e.1.isKey = true) (hk : Travels depth e.1)
    (hv : Travels depth e.2) :
    ∃ bytes, writeEntry (writeValue depth) e = .ok bytes ∧ ∀ place,
      Reads (readEntry (readValue depth (place ++ [.key])) (readValue depth (place ++ [.value])))
        bytes e := by
  obtain ⟨key, hwkey, hrkey⟩ := hk
  obtain ⟨value, hwvalue, hrvalue⟩ := hv
  refine ⟨key ++ value, ?_, fun place => (hrkey _).bind ((hrvalue _).bind_pure ?_)⟩
  · rw [writeEntry, hwkey, hwvalue]
    rfl
  · rw [if_pos hkey]
    exact reads_pure _

/-- An extension is read as what its type and its data make. -/
theorem reads_extension {type : UInt8} {data : List UInt8} {v : Value} {place : Place}
    (h : data.length < sizeLimit)
    (hbody : Reads (extensionBody data.length place) (type :: data) v) :
    Reads (readValue (depth + 1) place) (writeExtension type data) v := by
  unfold readValue
  exact (reads_extensionHead h).bind hbody

/-- **A value that can travel does.** -/
theorem travels_of_portable (depth : Nat) (v : Value) (h : v.Portable depth) :
    Travels depth v := by
  induction depth generalizing v with
  | zero => exact h.elim
  | succ depth ih =>
    cases v with
    | null =>
      refine ⟨[0xC0], rfl, fun place => ?_⟩
      unfold readValue
      exact reads_null.bind_pure (reads_pure _)
    | bool b =>
      refine ⟨_, rfl, fun place => ?_⟩
      unfold readValue
      exact (reads_bool b).bind_pure (reads_pure _)
    | int n =>
      obtain ⟨bytes, hwrite, hread⟩ := reads_int h
      refine ⟨bytes, hwrite, fun place => ?_⟩
      unfold readValue
      exact hread.bind_pure (reads_pure _)
    | float x =>
      refine ⟨_, rfl, fun place => ?_⟩
      unfold readValue
      have hlt : x.bits.toNat < 256 ^ 8 := x.bits.toNat_lt
      have hbits := (reads_readNat hlt).map fun bits => Head.float ⟨UInt64.ofNat bits⟩
      rw [UInt64.ofNat_toNat] at hbits
      exact (reads_readHead rfl hbits).bind_pure (reads_pure _)
    | text s =>
      refine ⟨_, writeValue_text h, fun place => ?_⟩
      unfold readValue
      exact (reads_textHead h).bind ((reads_textBody s).map _)
    | bytes b =>
      refine ⟨_, writeValue_bytes h, fun place => ?_⟩
      unfold readValue
      exact (reads_bytesHead h).bind ((reads_takeBytes rfl).map _)
    | list items =>
      obtain ⟨hsize, hitems⟩ := h
      obtain ⟨body, hbody, hcollect⟩ := reads_all (writeValue depth)
        (fun (place : Place) i => readValue depth (place ++ [.item i])) id items fun x hx =>
          (ih x (hitems x hx)).imp fun bytes hbytes => ⟨hbytes.1, fun place i => hbytes.2 _⟩
      refine ⟨_, writeValue_list hsize hbody, fun place => ?_⟩
      unfold readValue
      have hread := (hcollect place 0 []).map Value.list
      rw [List.reverse_nil, List.nil_append, List.map_id] at hread
      exact (reads_listHead hsize).bind hread
    | map entries =>
      obtain ⟨hsize, hentries, hkeys⟩ := h
      obtain ⟨body, hbody, hcollect⟩ := reads_all (writeEntry (writeValue depth))
        (fun (place : Place) _ => readEntry (readValue depth (place ++ [.key]))
          (readValue depth (place ++ [.value]))) id entries fun e he =>
            have ⟨hkey, hk, hv⟩ := hentries e he
            (reads_entry hkey (ih e.1 hk) (ih e.2 hv)).imp fun bytes hbytes =>
              ⟨hbytes.1, fun place _ => hbytes.2 place⟩
      refine ⟨_, writeValue_map hsize hbody, fun place => ?_⟩
      unfold readValue
      have hread := (hcollect place 0 []).map mapOf
      rw [List.reverse_nil, List.nil_append, List.map_id, mapOf_of_pairwise entries hkeys] at hread
      exact (reads_mapHead hsize).bind hread
    | moment t =>
      refine ⟨_, rfl, fun place => reads_extension (Timestamp.length_toBytes_lt _) ?_⟩
      refine (reads_readByte _).bind ((reads_takeBytes rfl).bind_pure ?_)
      rw [if_neg (not_not_intro rfl), Timestamp.moment_toBytes]
      exact reads_pure _
    | extension type data =>
      obtain ⟨htype, hsize⟩ := h
      refine ⟨_, writeValue_extension hsize, fun place => reads_extension hsize ?_⟩
      refine (reads_readByte type).bind ((reads_takeBytes rfl).bind_pure ?_)
      rw [if_pos htype]
      exact reads_pure _

end MessagePack

end RangeReader

import RangeReader.Proofs.Echo

/-!
# Whatever is read could have been written

A reader takes much that no writer writes: numbers and sizes in more bytes than
they need, doubles of four bytes, the fields of a token in any order and more
than once, fields that nobody knows, maps in which a key comes again. All of it
has been forgotten when the reader is done. Its result never asks for more than
the format has room for, as it came out of the format: an integer out of eight
bytes is one of 64 bits, a size out of four is below the limit of sizes, and a
value that a reader followed to some depth is nested no deeper.

Two things come out of the bytes less directly. A text has to be written again
with the bytes that it was read from, not with more; UTF-8 is strict enough for
that (`Text.Utf8.encode_of_decode`). And a map has different keys whatever the
entries were, as it is made by putting one after the other
(`Value.entries_of_put`).

`Gives` is what the proofs are about. Unlike `Yields` it says nothing of the
bytes, so it holds of a reader by itself.
-/

namespace RangeReader

namespace MessagePack

/-! ## What readers give -/

/-- **What a reader gives**, from whatever bytes it gives something. -/
def Gives {α : Type} (reader : Reader α) (P : α → Prop) : Prop :=
  ∀ cursor x after, reader cursor = .ok (x, after) → P x

variable {α β : Type} {P : α → Prop} {Q : β → Prop} {reader : Reader α} {next : α → Reader β}

theorem gives_pure {x : α} (h : P x) : Gives (pure x) P := by
  intro cursor y after hy
  cases hy
  exact h

theorem gives_throw (fault : Fault) : Gives (throw fault : Reader α) P := nofun

/-- **One after the other.** -/
theorem Gives.bind (hx : Gives reader P) (hy : ∀ x, P x → Gives (next x) Q) :
    Gives (reader >>= next) Q := by
  intro cursor y after h
  obtain ⟨⟨x, middle⟩, hfirst, hsecond⟩ := eq_ok_of_bind h
  exact hy x (hx _ _ _ hfirst) _ _ _ hsecond

/-- One after the other, where nothing is asked of the first result. -/
theorem gives_then (hy : ∀ x, Gives (next x) Q) : Gives (reader >>= next) Q :=
  Gives.bind (P := fun _ => True) (fun _ _ _ _ => trivial) fun x _ => hy x

theorem Gives.map {f : α → β} (hx : Gives reader P) (hf : ∀ x, P x → Q (f x)) :
    Gives (f <$> reader) Q := by
  rw [map_eq_pure_bind]
  exact hx.bind fun x h => gives_pure (hf x h)

theorem Gives.imp {P' : α → Prop} (hx : Gives reader P) (himp : ∀ x, P x → P' x) :
    Gives reader P' := fun _ _ _ h => himp _ (hx _ _ _ h)

/-- The result of a run is one that the reader gives. -/
theorem Gives.of_run {bytes : List UInt8} {x : α} (hx : Gives reader P)
    (hr : reader.run bytes = .ok x) : P x := by
  obtain ⟨cursor, hread⟩ := ok_of_run hr
  exact hx _ _ _ hread

/-! ## Heads -/

theorem gives_takeBytes (n : Nat) : Gives (takeBytes n) fun bytes => bytes.length = n := by
  intro cursor bytes after h
  unfold takeBytes at h
  dsimp only at h
  split at h
  · cases h
  · rename_i hlength
    cases h
    rw [List.splitAt_eq] at hlength ⊢
    dsimp only at hlength ⊢
    have := List.length_take_le n cursor.rest
    omega

theorem gives_readNat (width : Nat) : Gives (readNat width) fun n => n < 256 ^ width :=
  (gives_takeBytes width).map fun bytes hbytes => hbytes ▸ ofBigEndian_lt bytes

theorem gives_readSigned {width : Nat} (h : 256 ^ width ≤ wordLimit) :
    Gives (readSigned width) IsWord := by
  refine (gives_takeBytes width).map fun bytes hbytes => ?_
  obtain ⟨hlow, hhigh⟩ := ofSignedBigEndian_mem bytes
  rw [hbytes] at hlow hhigh
  unfold wordLimit at h
  unfold IsWord
  omega

/-- **A head that says no more than there is room for.** -/
def Head.InRange : Head → Prop
  | .int n => IsWord n
  | .text size | .bytes size | .list size | .map size | .extension size => size < sizeLimit
  | _ => True

/-- An integer of an opcode alone. -/
theorem isWord_of_small {n : Int} (hlow : -0x20 ≤ n) (hhigh : n < 0x80) : IsWord n := by
  unfold IsWord
  omega

/-- A size of at most four bytes. -/
theorem gives_size {width : Nat} (h : 256 ^ width ≤ sizeLimit) {head : Nat → Head}
    (hhead : ∀ n, n < sizeLimit → (head n).InRange) :
    Gives (head <$> readNat width) Head.InRange :=
  (gives_readNat width).map fun n hn => hhead n (Nat.lt_of_lt_of_le hn h)

/-- An integer of at most eight bytes, without a sign. -/
theorem gives_unsigned {width : Nat} (h : 256 ^ width ≤ wordLimit) :
    Gives ((fun n : Int => Head.int n) <$> do let n ← readNat width; pure (n : Int))
      Head.InRange := by
  have hread : Gives (do let n ← readNat width; pure (n : Int)) IsWord :=
    (gives_readNat width).bind fun n hn => gives_pure (isWord_natCast (Nat.lt_of_lt_of_le hn h))
  exact hread.map fun _ hn => hn

/-- An integer of at most eight bytes, with one. -/
theorem gives_signed {width : Nat} (h : 256 ^ width ≤ wordLimit) :
    Gives (Head.int <$> readSigned width) Head.InRange :=
  (gives_readSigned h).map fun _ hn => hn

/-- **Every head is in range**, whatever its opcode. -/
theorem gives_headOf {opcode : UInt8} {reader : Reader Head}
    (h : headOf? opcode.toNat = some reader) : Gives reader Head.InRange := by
  have hlt : opcode.toNat < 0x100 := opcode.toNat_lt
  have hsize {n : Nat} (hn : n < 0x100) : n < sizeLimit := Nat.lt_trans hn (by decide)
  unfold headOf? at h
  split at h
  · cases h
    exact gives_pure (isWord_of_small (by omega) (by omega))
  · split at h
    · cases h
      exact gives_pure (hsize (by omega))
    · split at h
      · cases h
        exact gives_pure (hsize (by omega))
      · split at h
        · cases h
          exact gives_pure (hsize (by omega))
        · split at h
          · cases h
            exact gives_pure (isWord_of_small (by omega) (by omega))
          -- opcodes with a meaning of their own
          · split at h <;> cases h
            all_goals first
              | exact gives_pure trivial
              | exact gives_pure (hsize (by decide))
              | exact gives_signed (by decide)
              | exact gives_unsigned (by decide)
              | exact gives_size (by decide) fun n hn => hn
              | exact (gives_readNat _).map fun _ _ => trivial

theorem gives_readHead : Gives readHead Head.InRange := by
  refine gives_then fun start => gives_then fun opcode => ?_
  split
  · rename_i head hhead
    exact gives_headOf hhead
  · exact gives_throw _

/-! ## Items of one kind -/

variable {place : Place}

theorem gives_refuse (head : Head) (wanted : Wanted) (place : Place) :
    Gives (refuse head wanted place : Reader α) P := by
  cases head with
  | text size | bytes size | extension size => exact gives_then fun _ => gives_throw _
  | _ => exact gives_throw _

/-- A text has as many bytes as were read. -/
theorem gives_textBody {size : Nat} (h : size < sizeLimit) :
    Gives (textBody size) fun s => (Text.Utf8.encode s).length < sizeLimit := by
  refine (gives_takeBytes size).bind fun bytes hbytes => ?_
  split
  · rename_i s hs
    refine gives_pure ?_
    rw [Text.Utf8.encode_of_decode hs, hbytes]
    exact h
  · exact gives_throw _

theorem gives_readText :
    Gives (readText place) fun s => (Text.Utf8.encode s).length < sizeLimit := by
  refine gives_readHead.bind fun head hhead => ?_
  cases head with
  | text size => exact gives_textBody hhead
  | _ => exact gives_refuse _ _ _

theorem gives_readText? :
    Gives (readText? place) fun s => ∀ t, s = some t → (Text.Utf8.encode t).length < sizeLimit := by
  refine gives_readHead.bind fun head hhead => ?_
  cases head with
  | text size => exact (gives_textBody hhead).map fun s hs t ht => Option.some.inj ht ▸ hs
  | null => exact gives_pure nofun
  | _ => exact gives_refuse _ _ _

theorem gives_readInt : Gives (readInt place) IsWord := by
  refine gives_readHead.bind fun head hhead => ?_
  cases head with
  | int n => exact gives_pure hhead
  | _ => exact gives_refuse _ _ _

theorem gives_readInt? : Gives (readInt? place) fun n => ∀ m, n = some m → IsWord m := by
  refine gives_readHead.bind fun head hhead => ?_
  cases head with
  | int n => exact gives_pure fun m hm => Option.some.inj hm ▸ hhead
  | null => exact gives_pure nofun
  | _ => exact gives_refuse _ _ _

theorem gives_readListHead : Gives (readListHead place) fun count => count < sizeLimit := by
  refine gives_readHead.bind fun head hhead => ?_
  cases head with
  | list count => exact gives_pure hhead
  | _ => exact gives_refuse _ _ _

/-- Items that are collected behind others. -/
theorem gives_collect {item : Nat → Reader α} (h : ∀ i, Gives (item i) P) (left i : Nat)
    (before : List α) (hbefore : ∀ x ∈ before, P x) :
    Gives (collect item left i before) fun xs =>
      xs.length = before.length + left ∧ ∀ x ∈ xs, P x := by
  induction left generalizing i before with
  | zero =>
    exact gives_pure ⟨List.length_reverse, fun x hx => hbefore x (List.mem_reverse.mp hx)⟩
  | succ left ih =>
    refine (h i).bind fun x hx => (ih (i + 1) (x :: before) ?_).imp fun xs hxs => ⟨?_, hxs.2⟩
    · exact List.forall_mem_cons.mpr ⟨hx, hbefore⟩
    · rw [hxs.1, List.length_cons]
      omega

/-- **Items one after the other** are as many as were asked for. -/
theorem gives_items {item : Nat → Reader α} (h : ∀ i, Gives (item i) P) {count : Nat}
    (hcount : count < sizeLimit) :
    Gives (collect item count 0 []) fun xs => xs.length < sizeLimit ∧ ∀ x ∈ xs, P x := by
  refine (gives_collect h count 0 [] (List.forall_mem_nil P)).imp fun xs hxs => ⟨?_, hxs.2⟩
  rw [hxs.1, List.length_nil, Nat.zero_add]
  exact hcount

/-! ## Values -/

end MessagePack

namespace Value

variable {entries : List (Value × Value)} {k v : Value}

/-- Putting an entry makes a map longer by one entry at most. -/
theorem length_put_le (entries : List (Value × Value)) (k v : Value) :
    (put entries k v).length ≤ entries.length + 1 := by
  induction entries with
  | nil => exact Nat.le_refl _
  | cons e entries ih =>
    unfold put
    split
    · exact Nat.le_succ _
    · exact Nat.succ_le_succ ih

/-- **The entries after one was put**: those before it, of which one may have its
value, and it. -/
theorem mem_put {e : Value × Value} (h : e ∈ put entries k v) :
    e ∈ entries ∨ (∃ w, (e.1, w) ∈ entries) ∧ e.2 = v ∨ e = (k, v) := by
  induction entries with
  | nil => exact .inr (.inr (List.mem_singleton.mp h))
  | cons first entries ih =>
    unfold put at h
    split at h
    · rcases List.mem_cons.mp h with rfl | h
      · exact .inr (.inl ⟨⟨first.2, List.mem_cons_self⟩, rfl⟩)
      · exact .inl (List.mem_cons_of_mem _ h)
    · rcases List.mem_cons.mp h with rfl | h
      · exact .inl List.mem_cons_self
      · rcases ih h with h | ⟨⟨w, hw⟩, hv⟩ | h
        · exact .inl (List.mem_cons_of_mem _ h)
        · exact .inr (.inl ⟨⟨w, List.mem_cons_of_mem _ hw⟩, hv⟩)
        · exact .inr (.inr h)

/-- Different keys stay different. -/
theorem pairwise_put (h : entries.Pairwise fun a b => same a.1 b.1 = false) (k v : Value) :
    (put entries k v).Pairwise fun a b => same a.1 b.1 = false := by
  induction entries with
  | nil => exact List.pairwise_singleton _ _
  | cons first entries ih =>
    obtain ⟨hfirst, hrest⟩ := List.pairwise_cons.mp h
    unfold put
    split
    · exact List.pairwise_cons.mpr ⟨hfirst, hrest⟩
    · rename_i hkey
      refine List.pairwise_cons.mpr ⟨fun e he => ?_, ih hrest⟩
      rcases mem_put he with he | ⟨⟨w, hw⟩, -⟩ | rfl
      · exact hfirst e he
      · exact hfirst (e.1, w) hw
      · exact Bool.eq_false_iff.mpr hkey

/-- **Entries put one after the other** make a map with different keys, which has
no more entries and only such as were put. -/
theorem entries_of_put {K V : Value → Prop} (entries before : List (Value × Value))
    (h : ∀ e ∈ entries, K e.1 ∧ V e.2) (hbefore : ∀ e ∈ before, K e.1 ∧ V e.2)
    (hkeys : before.Pairwise fun a b => same a.1 b.1 = false) :
    let map := entries.foldl (fun map (k, v) => put map k v) before
    map.length ≤ before.length + entries.length ∧ (∀ e ∈ map, K e.1 ∧ V e.2)
      ∧ map.Pairwise fun a b => same a.1 b.1 = false := by
  induction entries generalizing before with
  | nil => exact ⟨Nat.le_refl _, hbefore, hkeys⟩
  | cons entry entries ih =>
    obtain ⟨hentry, hentries⟩ := List.forall_mem_cons.mp h
    have hput : ∀ e ∈ put before entry.1 entry.2, K e.1 ∧ V e.2 := by
      intro e he
      rcases mem_put he with he | ⟨⟨w, hw⟩, hv⟩ | rfl
      · exact hbefore e he
      · exact ⟨(hbefore _ hw).1, hv ▸ hentry.2⟩
      · exact hentry
    obtain ⟨hlength, hall, hpairs⟩ := ih (put before entry.1 entry.2) hentries hput
      (pairwise_put hkeys entry.1 entry.2)
    refine ⟨?_, hall, hpairs⟩
    have := length_put_le before entry.1 entry.2
    rw [List.length_cons]
    exact Nat.le_trans hlength (by omega)

end Value

namespace MessagePack

variable {place : Place} {depth : Nat}

/-- The map of entries that can travel can travel. -/
theorem portable_mapOf {entries : List (Value × Value)} (hlength : entries.length < sizeLimit)
    (hentries : ∀ e ∈ entries,
      (e.1.isKey = true ∧ e.1.Portable depth) ∧ e.2.Portable depth) :
    (mapOf entries).Portable (depth + 1) := by
  obtain ⟨hle, hall, hpairs⟩ := Value.entries_of_put
    (K := fun k => k.isKey = true ∧ k.Portable depth) (V := Value.Portable depth) entries []
    hentries nofun List.Pairwise.nil
  rw [List.length_nil, Nat.zero_add] at hle
  refine ⟨Nat.lt_of_le_of_lt hle hlength, fun e he => ?_, hpairs⟩
  obtain ⟨⟨hkey, hfirst⟩, hsecond⟩ := hall e he
  exact ⟨hkey, hfirst, hsecond⟩

theorem gives_readEntry {key value : Reader Value} (hkey : Gives key (Value.Portable depth))
    (hvalue : Gives value (Value.Portable depth)) :
    Gives (readEntry key value) fun e =>
      (e.1.isKey = true ∧ e.1.Portable depth) ∧ e.2.Portable depth := by
  refine hkey.bind fun k hk => hvalue.bind fun v hv => ?_
  split
  · rename_i hisKey
    exact gives_pure ⟨⟨hisKey, hk⟩, hv⟩
  · exact gives_then fun _ => gives_throw _

theorem gives_extensionBody {size : Nat} (h : size < sizeLimit) :
    Gives (extensionBody size place) (Value.Portable (depth + 1)) := by
  refine gives_then fun type => (gives_takeBytes size).bind fun data hdata => ?_
  split
  · rename_i htype
    exact gives_pure ⟨htype, hdata ▸ h⟩
  · split
    · exact gives_throw _
    · exact gives_pure trivial

/-- **A value that is read can travel.** -/
theorem gives_readValue (depth : Nat) (place : Place) :
    Gives (readValue depth place) (Value.Portable depth) := by
  induction depth generalizing place with
  | zero => exact gives_throw _
  | succ depth ih =>
    unfold readValue
    refine gives_readHead.bind fun head hhead => ?_
    cases head with
    | null | bool b | float x => exact gives_pure trivial
    | int n => exact gives_pure hhead
    | text size => exact (gives_textBody hhead).map fun s hs => hs
    | bytes size =>
      refine (gives_takeBytes size).map fun b hb => ?_
      show b.length < sizeLimit
      rw [hb]
      exact hhead
    | list count => exact (gives_items (fun i => ih _) hhead).map fun items h => h
    | map count =>
      exact (gives_items (fun _ => gives_readEntry (ih _) (ih _)) hhead).map
        fun entries h => portable_mapOf h.1 h.2
    | extension size => exact gives_extensionBody hhead

/-- Zero and false are one key. It stays as it came first, and its value is the
last. -/
example : (readValue 2 []).run [0x82, 0x00, 0xC0, 0xC2, 0xC3]
    = .ok (.map [(.int 0, .bool true)]) := by
  cbv

end MessagePack

namespace Checkpoint

open MessagePack

/-! ## Tokens -/

theorem gives_need {α : Type} {P : α → Prop} {field : Field} {x : Option α}
    (h : ∀ y, x = some y → P y) : Gives (need field x) P := by
  cases x with
  | none => exact gives_throw _
  | some y => exact gives_pure (h y rfl)

section

variable [Nesting]

theorem gives_readOption (place : Place) :
    Gives (readOption place) fun o => o.2.Portable (nestingLimit - 3) := by
  have hrest : Gives (do
      let name ← readText (place ++ [.item 0])
      let value ← readValue (nestingLimit - 3) (place ++ [.item 1])
      pure (name, value)) fun o => o.2.Portable (nestingLimit - 3) :=
    gives_then fun name => (gives_readValue _ _).bind fun value hvalue => gives_pure hvalue
  refine gives_then fun count => ?_
  dsimp only
  split
  · exact gives_then fun _ => hrest
  · exact hrest

theorem gives_readOptions (place : Place) :
    Gives (readOptions place) fun options =>
      options.length < sizeLimit ∧ ∀ o ∈ options, o.2.Portable (nestingLimit - 3) :=
  gives_readListHead.bind fun _ hcount => gives_items (fun _ => gives_readOption _) hcount

/-- **Fields that there is room for**, as far as they were read. -/
structure Fields.HaveRoom (fields : Fields) : Prop where
  bucket : ∀ s, fields.bucket = some s → (Text.Utf8.encode s).length < sizeLimit
  name : ∀ s, fields.name = some s → (Text.Utf8.encode s).length < sizeLimit
  generation : ∀ n, fields.generation = some n → ∀ m, n = some m → IsWord m
  options : ∀ options, fields.options = some options →
    options.length < sizeLimit ∧ ∀ o ∈ options, o.2.Portable (nestingLimit - 3)
  position : ∀ n, fields.position = some n → IsWord n
  chunkSize : ∀ n, fields.chunkSize = some n → IsWord n
  limit : ∀ n, fields.limit = some n → IsWord n
  lastEtag : ∀ tag, fields.lastEtag = some tag →
    ∀ t, tag = some t → (Text.Utf8.encode t).length < sizeLimit

theorem gives_readField {fields : Fields} (hf : fields.HaveRoom) (field : Field) :
    Gives (readField fields field) Fields.HaveRoom := by
  cases field with
  | bucket =>
    refine gives_readText.bind fun s hs => gives_pure { hf with bucket := ?_ }
    rintro _ ⟨⟩
    exact hs
  | name =>
    refine gives_readText.bind fun s hs => gives_pure { hf with name := ?_ }
    rintro _ ⟨⟩
    exact hs
  | generation =>
    refine gives_readInt?.bind fun n hn => gives_pure { hf with generation := ?_ }
    rintro _ ⟨⟩
    exact hn
  | options =>
    refine (gives_readOptions _).bind fun options h => gives_pure { hf with options := ?_ }
    rintro _ ⟨⟩
    exact h
  | position =>
    refine gives_readInt.bind fun n hn => gives_pure { hf with position := ?_ }
    rintro _ ⟨⟩
    exact hn
  | isOpen | ended => exact gives_then fun b => gives_pure { hf with }
  | chunkSize =>
    refine gives_readInt.bind fun n hn => gives_pure { hf with chunkSize := ?_ }
    rintro _ ⟨⟩
    exact hn
  | limit =>
    refine gives_readInt.bind fun n hn => gives_pure { hf with limit := ?_ }
    rintro _ ⟨⟩
    exact hn
  | lastEtag =>
    refine gives_readText?.bind fun tag htag => gives_pure { hf with lastEtag := ?_ }
    rintro _ ⟨⟩
    exact htag

/-- **Any number of entries**, of which the last of each field counts. -/
theorem gives_readFields (left : Nat) {fields : Fields} (hf : fields.HaveRoom) :
    Gives (readFields left fields) Fields.HaveRoom := by
  induction left generalizing fields with
  | zero => exact gives_pure hf
  | succ left ih =>
    refine gives_then fun key => ?_
    split
    · exact (gives_readField hf _).bind fun read hread => ih hread
    · exact gives_then fun _ => ih hf

/-- **A content that there is room for.** -/
structure Content.HasRoom (content : Content) : Prop where
  bucket : (Text.Utf8.encode content.bucket).length < sizeLimit
  name : (Text.Utf8.encode content.name).length < sizeLimit
  generation : ∀ m, content.generation = some m → IsWord m
  options : content.options.length < sizeLimit
    ∧ ∀ o ∈ content.options, o.2.Portable (nestingLimit - 3)
  position : IsWord content.position
  chunkSize : IsWord content.chunkSize
  limit : IsWord content.limit
  lastEtag : ∀ t, content.lastEtag = some t → (Text.Utf8.encode t).length < sizeLimit

/-- **There is room for whatever is read from a token.** -/
theorem gives_readContent : Gives readContent Content.HasRoom := by
  have hnone : Fields.HaveRoom {} := ⟨nofun, nofun, nofun, nofun, nofun, nofun, nofun, nofun⟩
  refine gives_then fun count => (gives_readFields count hnone).bind fun fields hf => ?_
  refine (gives_need hf.bucket).bind fun bucket hbucket => ?_
  refine (gives_need hf.name).bind fun name hname => ?_
  refine (gives_need hf.generation).bind fun generation hgeneration => ?_
  refine (gives_need hf.options).bind fun options hoptions => ?_
  refine (gives_need hf.position).bind fun position hposition => ?_
  refine gives_then fun isOpen => gives_then fun ended => ?_
  refine (gives_need hf.chunkSize).bind fun chunkSize hchunkSize => ?_
  refine (gives_need hf.limit).bind fun limit hlimit => ?_
  refine (gives_need hf.lastEtag).bind fun lastEtag hlastEtag => gives_pure ?_
  exact ⟨hbucket, hname, hgeneration, hoptions, hposition, hchunkSize, hlimit, hlastEtag⟩

end

end Checkpoint

end RangeReader

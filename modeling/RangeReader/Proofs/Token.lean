import RangeReader.Checkpoint
import RangeReader.Proofs.MessagePack

/-!
# Checkpoints survive their tokens

The token of a checkpoint is read back as that checkpoint, where its values
are of the kinds that the fields of a token have and there is room for them:
that is `Checkpoint.Fits`. A checkpoint taken from a channel has the right
kinds. What there may be no room for are numbers beyond 64 bits, names beyond four
gigabytes and the values that callers chose for the generation and the options.

A token is a map of ten entries, written in one order and read in any. The
proof goes along the list of fields, for any such list: an entry is read as
its field (`reads_field`), and so the entries of a list as the fields of that
list, put one after the other (`reads_fields`).
-/

namespace RangeReader

namespace MessagePack

variable {place : Place} {depth : Nat}

/-! ## Items of one kind -/

theorem reads_readText {s : String} (h : (Text.Utf8.encode s).length < sizeLimit) :
    Reads (readText place) (writeText s) s :=
  (reads_textHead h).bind (reads_textBody s)

/-- A text, or null where there is none. -/
theorem reads_readText? {s : Option String}
    (h : ∀ t, s = some t → (Text.Utf8.encode t).length < sizeLimit) :
    ∃ bytes, writeValue (depth + 1) (etagValue s) = .ok bytes
      ∧ Reads (readText? place) bytes s := by
  cases s with
  | none => exact ⟨[0xC0], rfl, reads_null.bind_pure (reads_pure _)⟩
  | some t =>
    exact ⟨writeText t, writeValue_text (h t rfl),
      (reads_textHead (h t rfl)).bind ((reads_textBody t).map some)⟩

theorem reads_readInt {n : Int} (h : IsWord n) :
    ∃ bytes, writeValue (depth + 1) (.int n) = .ok bytes ∧ Reads (readInt place) bytes n := by
  obtain ⟨bytes, hwrite, hread⟩ := reads_int h
  exact ⟨bytes, hwrite, hread.bind_pure (reads_pure n)⟩

/-- An integer, or null where there is none. -/
theorem reads_readInt? {n : Option Int} (h : ∀ m, n = some m → IsWord m) :
    ∃ bytes, writeValue (depth + 1) (n.elim .null .int) = .ok bytes
      ∧ Reads (readInt? place) bytes n := by
  cases n with
  | none => exact ⟨[0xC0], rfl, reads_null.bind_pure (reads_pure _)⟩
  | some m =>
    obtain ⟨bytes, hwrite, hread⟩ := reads_int (h m rfl)
    exact ⟨bytes, hwrite, hread.bind_pure (reads_pure _)⟩

theorem reads_readBool (b : Bool) :
    Reads (readBool place) [if b then 0xC3 else 0xC2] b :=
  (reads_bool b).bind_pure (reads_pure b)

theorem reads_readListHead {count : Nat} (h : count < sizeLimit) :
    Reads (readListHead place) (listHead count) count :=
  (reads_listHead h).bind_pure (reads_pure count)

theorem reads_readMapHead {count : Nat} (h : count < sizeLimit) :
    Reads (readMapHead place) (mapHead count) count :=
  (reads_mapHead h).bind_pure (reads_pure count)

/-- A short text in the place of a key is read as its bytes. -/
theorem reads_readKey {s : String} (h : (Text.Utf8.encode s).length < 32) :
    Reads readKey (writeText s) (Text.Utf8.encode s) := by
  have hopcode : (UInt8.ofNat (0xA0 + (Text.Utf8.encode s).length)).toNat
      = 0xA0 + (Text.Utf8.encode s).length := toNat_byte (by omega)
  have hkind : opcodeKind? (0xA0 + (Text.Utf8.encode s).length) = some .text := by
    unfold opcodeKind?
    rw [if_neg (by omega), if_neg (by omega), if_neg (by omega), if_pos (by omega)]
  unfold writeText textHead
  simp only
  -- the size of so short a text is in its opcode
  rw [if_pos h]
  refine (reads_readByte _).bind ?_
  simp only [hopcode, hkind]
  rw [if_neg (by omega), if_neg (by omega), if_neg (by omega)]
  rw [Nat.add_sub_cancel_left, pure_bind]
  exact reads_takeBytes rfl

/-- A reader that reads the whole of some bytes gives what it reads. -/
theorem run_of_reads {α : Type} {reader : Reader α} {bytes : List UInt8} {x : α}
    (h : Reads reader bytes x) : reader.run bytes = .ok x := by
  unfold Reader.run StateT.run
  have hread := h 0 []
  rw [List.append_nil] at hread
  rw [hread]
  rfl

end MessagePack

namespace Checkpoint

open MessagePack

theorem ofKey?_key (field : Field) : Field.ofKey? (Text.Utf8.encode field.key) = some field := by
  cases field <;> rfl

theorem length_key (field : Field) : (Text.Utf8.encode field.key).length < 32 := by
  cases field <;> decide

/-! ## The fields of a token -/

/-- The fields with one more of those that a token holds. -/
def Content.put (content : Content) (fields : Fields) : Field → Fields
  | .bucket => { fields with bucket := some content.bucket }
  | .name => { fields with name := some content.name }
  | .generation => { fields with generation := some content.generation }
  | .options => { fields with options := some content.options }
  | .position => { fields with position := some content.position }
  | .isOpen => { fields with isOpen := some content.isOpen }
  | .ended => { fields with ended := some content.ended }
  | .chunkSize => { fields with chunkSize := some content.chunkSize }
  | .limit => { fields with limit := some content.limit }
  | .lastEtag => { fields with lastEtag := some content.lastEtag }

/-- What the options of a checkpoint are in a token: their names and values. -/
def namedOptions (options : List ReadOption) : List (String × Value) :=
  options.map fun o => (o.kind.wireName, o.value)

/-- Every kind of option is found by its name. -/
theorem namedKind_wireName (kind : OptionKind) : namedKind kind.wireName = .ok kind := by
  cases kind <;> rfl

theorem length_wireName (kind : OptionKind) :
    (Text.Utf8.encode kind.wireName).length < sizeLimit := by
  cases kind <;> decide

/-- The names of the options of a token are those of kinds. -/
theorem mapM_namedKind (options : List ReadOption) :
    (namedOptions options).mapM (fun o : String × Value => namedKind o.1)
      = .ok (options.map ReadOption.kind) := by
  induction options with
  | nil => rfl
  | cons o options ih =>
    show (((o.kind.wireName, o.value) :: namedOptions options).mapM
      fun o : String × Value => namedKind o.1) = _
    rw [List.mapM_cons, ih, namedKind_wireName]
    rfl

/-- Options are those that were written. -/
theorem zip_namedOptions (options : List ReadOption) :
    ((options.map ReadOption.kind).zip (namedOptions options)).map
      (fun (kind, o) => (⟨kind, o.2⟩ : ReadOption)) = options := by
  induction options with
  | nil => rfl
  | cons o options ih => exact congrArg (o :: ·) ih

/-- A result that is there is passed on. -/
theorem ok_bind {ε α β : Type} (x : α) (f : α → Except ε β) : (Except.ok x >>= f) = f x := rfl

/-- An identity is that of its parts. -/
theorem make_self (o : ObjectId) : ObjectId.make o.bucket o.name o.generation = .ok o := by
  unfold ObjectId.make
  rw [dif_neg o.bucket_ne, dif_neg o.name_ne]

section

variable [Nesting]

/-- **A checkpoint whose token holds a content**: its fields are of the kinds
that a token has, and they fit. -/
structure Fits (p : Checkpoint) (content : Content) : Prop where
  bucket : p.object.bucket = content.bucket
  bucket_fits : (Text.Utf8.encode content.bucket).length < sizeLimit
  name : p.object.name = content.name
  name_fits : (Text.Utf8.encode content.name).length < sizeLimit
  generation : p.object.generation = content.generation.elim .null .int
  generation_fits : ∀ n, content.generation = some n → IsWord n
  options : namedOptions p.options = content.options
  options_fit : p.options.length < sizeLimit ∧ ∀ o ∈ p.options, o.value.Portable (nestingLimit - 3)
  position : p.position = .int content.position
  position_fits : IsWord content.position
  isOpen : p.isOpen = .bool content.isOpen
  ended : p.ended = .bool content.ended
  chunkSize : p.chunkSize = .int content.chunkSize
  chunkSize_fits : IsWord content.chunkSize
  limit : p.limit = .int content.limit
  limit_fits : IsWord content.limit
  lastEtag : p.lastEtag = etagValue content.lastEtag
  lastEtag_fits : ∀ t, content.lastEtag = some t → (Text.Utf8.encode t).length < sizeLimit

/-- An option that can travel. -/
theorem reads_option {o : ReadOption} (h : o.value.Portable (nestingLimit - 3)) :
    ∃ bytes, writeValue (nestingLimit - 2) (.list [.text o.kind.wireName, o.value]) = .ok bytes
      ∧ ∀ place, Reads (readOption place) bytes (o.kind.wireName, o.value) := by
  obtain ⟨bytes, hwrite, hread⟩ := travels_of_portable _ o.value h
  have hname : writeValue (nestingLimit - 3) (.text o.kind.wireName)
      = .ok (writeText o.kind.wireName) := writeValue_text (length_wireName o.kind)
  have hitems : writeAll (writeValue (nestingLimit - 3)) [.text o.kind.wireName, o.value]
      = .ok (writeText o.kind.wireName ++ bytes) := by
    rw [writeAll, writeAll, writeAll, hname, hwrite]
    show Except.ok (writeText o.kind.wireName ++ (bytes ++ [])) = _
    rw [List.append_nil]
  have htwo : 2 < sizeLimit := by decide
  refine ⟨_, writeValue_list htwo hitems, fun place => ?_⟩
  refine (reads_readListHead htwo).bind ?_
  exact (reads_readText (length_wireName o.kind)).bind ((hread _).bind_pure (reads_pure _))

/-- Options that can travel, one after the other. -/
theorem reads_options (options : List ReadOption) (hlength : options.length < sizeLimit)
    (h : ∀ o ∈ options, o.value.Portable (nestingLimit - 3)) :
    ∃ bytes, writeValue (nestingLimit - 1)
        (.list (options.map fun o => .list [.text o.kind.wireName, o.value])) = .ok bytes
      ∧ ∀ place, Reads (readOptions place) bytes (namedOptions options) := by
  obtain ⟨body, hbody, hcollect⟩ := reads_all
    (fun o : ReadOption => writeValue (nestingLimit - 2) (.list [.text o.kind.wireName, o.value]))
    (fun (place : Place) i => readOption (place ++ [.item i])) _ options fun o ho =>
      (reads_option (h o ho)).imp fun bytes hbytes => ⟨hbytes.1, fun place i => hbytes.2 _⟩
  rw [← writeAll_map] at hbody
  refine ⟨_, writeValue_list (by rwa [List.length_map]) hbody, fun place => ?_⟩
  rw [List.length_map]
  exact (reads_readListHead hlength).bind (hcollect place 0 [])

variable {p : Checkpoint} {content : Content}

/-- **Every field is read from its value.** -/
theorem reads_field (hf : p.Fits content) (field : Field) :
    ∃ bytes, writeValue (nestingLimit - 1) (p.fieldValue field) = .ok bytes
      ∧ ∀ fields, Reads (readField fields field) bytes (content.put fields field) := by
  cases field with
  | bucket =>
    rw [fieldValue, hf.bucket]
    exact ⟨_, writeValue_text hf.bucket_fits, fun fields =>
      (reads_readText hf.bucket_fits).bind_pure (reads_pure _)⟩
  | name =>
    rw [fieldValue, hf.name]
    exact ⟨_, writeValue_text hf.name_fits, fun fields =>
      (reads_readText hf.name_fits).bind_pure (reads_pure _)⟩
  | generation =>
    rw [fieldValue, hf.generation]
    obtain ⟨bytes, hwrite, hread⟩ := reads_readInt? hf.generation_fits
    exact ⟨bytes, hwrite, fun fields => hread.bind_pure (reads_pure _)⟩
  | options =>
    obtain ⟨bytes, hwrite, hread⟩ := reads_options p.options hf.options_fit.1 hf.options_fit.2
    rw [hf.options] at hread
    exact ⟨bytes, hwrite, fun fields => (hread _).bind_pure (reads_pure _)⟩
  | position =>
    rw [fieldValue, hf.position]
    obtain ⟨bytes, hwrite, hread⟩ := reads_readInt hf.position_fits
    exact ⟨bytes, hwrite, fun fields => hread.bind_pure (reads_pure _)⟩
  | isOpen =>
    rw [fieldValue, hf.isOpen]
    exact ⟨_, rfl, fun fields => (reads_readBool content.isOpen).bind_pure (reads_pure _)⟩
  | ended =>
    rw [fieldValue, hf.ended]
    exact ⟨_, rfl, fun fields => (reads_readBool content.ended).bind_pure (reads_pure _)⟩
  | chunkSize =>
    rw [fieldValue, hf.chunkSize]
    obtain ⟨bytes, hwrite, hread⟩ := reads_readInt hf.chunkSize_fits
    exact ⟨bytes, hwrite, fun fields => hread.bind_pure (reads_pure _)⟩
  | limit =>
    rw [fieldValue, hf.limit]
    obtain ⟨bytes, hwrite, hread⟩ := reads_readInt hf.limit_fits
    exact ⟨bytes, hwrite, fun fields => hread.bind_pure (reads_pure _)⟩
  | lastEtag =>
    rw [fieldValue, hf.lastEtag]
    obtain ⟨bytes, hwrite, hread⟩ := reads_readText? hf.lastEtag_fits
    exact ⟨bytes, hwrite, fun fields => hread.bind_pure (reads_pure _)⟩

/-- **The entries of any fields are read as those fields**, put one after the
other. -/
theorem reads_fields (hf : p.Fits content) (left : List Field) :
    ∃ body, writeAll (writeEntry (writeValue (nestingLimit - 1)))
        (left.map fun field => (.text field.key, p.fieldValue field)) = .ok body
      ∧ ∀ fields, Reads (readFields left.length fields) body (left.foldl content.put fields) := by
  induction left with
  | nil => exact ⟨[], rfl, fun fields => reads_pure fields⟩
  | cons field left ih =>
    -- an entry is its key, which is known, and what `reads_field` says
    obtain ⟨value, hvalue, hreads⟩ := reads_field hf field
    obtain ⟨body, hbody, hfields⟩ := ih
    refine ⟨writeText field.key ++ (value ++ body), ?_, fun fields => ?_⟩
    · have hkey : (Text.Utf8.encode field.key).length < sizeLimit :=
        Nat.lt_trans (length_key field) (by decide)
      have hkeyText : writeValue (nestingLimit - 1) (.text field.key) = .ok (writeText field.key) :=
        writeValue_text hkey
      rw [List.map_cons, writeAll, writeEntry, hkeyText, hvalue, hbody, ← List.append_assoc]
      rfl
    · refine (reads_readKey (length_key field)).bind ?_
      rw [ofKey?_key]
      exact (hreads fields).bind (hfields _)

/-- **What a token holds is read from it.** -/
theorem readContent_token (hf : p.Fits content) :
    ∃ token, p.token = .ok token ∧ readContent.run token = .ok content := by
  obtain ⟨body, hbody, hfields⟩ := reads_fields hf Field.all
  have hten : Field.all.length < sizeLimit := by decide
  refine ⟨mapHead Field.all.length ++ body, ?_, run_of_reads ?_⟩
  · have hwrite := writeValue_map (by rwa [List.length_map]) hbody
    rw [List.length_map] at hwrite
    unfold token tokenOf
    rw [show writeValue nestingLimit (tokenValue p.fieldValue) = _ from hwrite]
    rfl
  · exact (reads_readMapHead hten).bind ((hfields {}).bind_pure (reads_pure content))

/-- **A token is read back as the checkpoint that it was written for**, where
its position and its limit are offsets. -/
theorem ofToken_token (hf : p.Fits content) {position limit : Nat}
    (hposition : p.position = .int position) (hlimit : p.limit = .int limit) :
    ∃ token, p.token = .ok token ∧ ofToken token = .ok p := by
  obtain ⟨token, hwrite, hread⟩ := readContent_token hf
  refine ⟨token, hwrite, ?_⟩
  unfold ofToken
  rw [hread, show (Except.ok content).mapError formatFault = .ok content from rfl, ok_bind,
    ← hf.options, mapM_namedKind, ok_bind, ← hf.position, hposition, Channel.bound_natCast, ok_bind,
    ← hf.limit, hlimit, Channel.bound_natCast, ok_bind, ← hf.bucket, ← hf.name, ← hf.generation,
    make_self, show (Except.ok p.object).mapError Fault.ofIdentity = .ok p.object from rfl, ok_bind,
    zip_namedOptions, ← hf.isOpen, ← hf.ended, ← hf.chunkSize, ← hf.lastEtag, ← hposition,
    ← hlimit]
  rfl

end

end Checkpoint

end RangeReader

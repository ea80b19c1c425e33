import Mathlib.Data.List.Forall2
import RangeReader.Proofs.HandOver
import RangeReader.Proofs.WrittenValues

/-!
# What a token can be read as

Not every checkpoint has a token, and not every token that was written is
accepted by its reader: it looks at the kinds of fields, the writer does not.
Where both succeed, there is little that can have changed on the way.
A reader takes from the bytes of a value exactly those bytes, also from a value
that it would read as another one, so every field stands where it was put, and
a field of a token has one form for each of its values. Only the value of an
option can be read as another one; a map with equal keys is.
-/

namespace RangeReader

/-- An identity is what its parts are. -/
theorem ObjectId.eq_of_parts {a b : ObjectId} (hbucket : a.bucket = b.bucket)
    (hname : a.name = b.name) (hgeneration : a.generation = b.generation) : a = b := by
  cases a
  cases b
  cases hbucket
  cases hname
  cases hgeneration
  rfl

/-- Tags are told apart as values. -/
theorem etagValue_injective {a b : Option String} (h : etagValue a = etagValue b) : a = b := by
  cases a <;> cases b <;> cases h <;> rfl

namespace Checkpoint

open MessagePack

/-- The value of an option in a token. -/
def pairOf (named : String × Value) : Value := .list [.text named.1, named.2]

/-- Names and values are told apart as pairs. -/
theorem pairOf_injective : Function.Injective pairOf := by
  rintro ⟨s, v⟩ ⟨t, w⟩ h
  cases h
  rfl

/-- Kinds have different names. -/
theorem wireName_injective : Function.Injective OptionKind.wireName := by
  intro kind kind' h
  have hfound := namedKind_wireName kind
  rw [h, namedKind_wireName] at hfound
  exact (Except.ok.inj hfound).symm

/-- Options are told apart by their names and values. -/
theorem namedOptions_injective : Function.Injective namedOptions := by
  refine List.map_injective_iff.mpr fun a b h => ?_
  obtain ⟨hname, hvalue⟩ := Prod.mk.inj h
  cases a
  cases b
  cases wireName_injective hname
  cases hvalue
  rfl

/-- The options of a checkpoint are written as pairs. -/
theorem fieldValue_options (p : Checkpoint) :
    p.fieldValue .options = .list ((namedOptions p.options).map pairOf) := by
  rw [namedOptions, List.map_map]
  rfl

/-- A field that was read. -/
theorem yields_need {α : Type} {P : α → Prop} {field : Field} {x : Option α}
    (h : ∀ y, x = some y → P y) : Yields (need field x) [] P := by
  cases x with
  | none => exact yields_throw _ _
  | some y => exact yields_pure (h y rfl)

/-- The name of a kind that was found by its name. -/
theorem wireName_of_namedKind {name : String} {kind : OptionKind} (h : namedKind name = .ok kind) :
    kind.wireName = name := by
  unfold namedKind at h
  split at h
  · rename_i found hfound
    cases h
    exact eq_of_beq (List.find?_some (p := fun k : OptionKind => k.wireName == name) hfound)
  · cases h

/-- Options have the names and the values that were read. -/
theorem namedOptions_zip {named : List (String × Value)} {kinds : List OptionKind}
    (h : named.mapM (fun o : String × Value => namedKind o.1) = .ok kinds) :
    namedOptions ((kinds.zip named).map fun (kind, o) => ⟨kind, o.2⟩) = named := by
  induction named generalizing kinds with
  | nil =>
    cases h
    rfl
  | cons o named ih =>
    rw [List.mapM_cons] at h
    obtain ⟨kind, hkind, h⟩ := eq_ok_of_bind h
    obtain ⟨others, hothers, h⟩ := eq_ok_of_bind h
    cases h
    show (kind.wireName, o.2) :: namedOptions ((others.zip named).map fun (kind, o) => ⟨kind, o.2⟩)
      = o :: named
    rw [ih hothers, wireName_of_namedKind hkind]

/-- An integer that is taken as a bound is not negative. -/
theorem bound_int_eq_ok {what : Bound} {n : Int} {m : Nat}
    (h : Channel.bound what (.int n) = .ok m) : (m : Int) = n := by
  unfold Channel.bound at h
  dsimp only at h
  split at h
  · cases h
  · cases h
    omega

/-- The parts of an identity that was made. -/
theorem make_eq_ok {bucket name : String} {generation : Value} {o : ObjectId}
    (h : ObjectId.make bucket name generation = .ok o) :
    o.bucket = bucket ∧ o.name = name ∧ o.generation = generation := by
  unfold ObjectId.make at h
  split at h
  · cases h
  · split at h
    · cases h
    · cases h
      exact ⟨rfl, rfl, rfl⟩

/-- Every field is among those of a token. -/
theorem Field.mem_all (field : Field) : field ∈ Field.all := by
  cases field <;> decide

section

variable [Nesting] {p q : Checkpoint} {value : Field → Value} {fields : Fields}
  {depth : Nat} {v : Value} {bytes : List UInt8} {place : Place}

/-- The values of the fields of a token are written. -/
theorem written_of_tokenOf {token : List UInt8} (h : tokenOf value = .ok token) (field : Field) :
    ∃ bytes, writeValue (nestingLimit - 1) (value field) = .ok bytes :=
  written_of_writeMap (eq_ok_of_mapError h) (.text field.key, value field)
    (List.mem_map_of_mem (Field.mem_all field))

/-- **What an option is read as**: its name, and its value if that can travel. -/
def ReadAs (written read : String × Value) : Prop :=
  read.1 = written.1 ∧ (written.2.Portable (nestingLimit - 3) → read.2 = written.2)

/-- **What options are read from**: a list of pairs, each of them read as an
option. -/
def AreRead (v : Value) (read : List (String × Value)) : Prop :=
  ∃ written, v = .list (written.map pairOf) ∧ List.Forall₂ ReadAs written read

/-- An option is read from a pair of its name and its value. -/
theorem yields_readOption (h : writeValue (nestingLimit - 2) v = .ok bytes) :
    Yields (readOption place) bytes fun read =>
      ∃ written, v = pairOf written ∧ ReadAs written read := by
  refine yields_list h fun items body hv hbody => ?_
  split
  · exact yields_throw _ _
  · rename_i hlength
    -- the body is the name, the value and nothing more
    obtain ⟨x, y, rfl⟩ := List.length_eq_two.mp (not_not.mp hlength)
    obtain ⟨name, hname, hbody⟩ := eq_ok_of_bind hbody
    obtain ⟨rest, hrest, hbody⟩ := eq_ok_of_bind hbody
    cases hbody
    obtain ⟨value, hvalue, hrest⟩ := eq_ok_of_bind hrest
    cases hrest
    refine (yields_readText hname).bind fun s hs => ?_
    rw [List.append_nil]
    refine (yields_of_portable hvalue).bind_nil fun read hread => yields_pure ?_
    exact ⟨(s, y), hv.trans (hs ▸ rfl), rfl, hread⟩

/-- Options that are read one by one are read from the list of what each is read
from. -/
theorem areRead_of_forall₂ {items : List Value} {read : List (String × Value)}
    (h : List.Forall₂ (fun x r => ∃ written, x = pairOf written ∧ ReadAs written r) items read) :
    AreRead (.list items) read := by
  induction h with
  | nil => exact ⟨[], rfl, .nil⟩
  | cons hx _ ih =>
    obtain ⟨first, rfl, hfirst⟩ := hx
    obtain ⟨rest, hitems, hrest⟩ := ih
    cases Value.list.inj hitems
    exact ⟨first :: rest, rfl, .cons hfirst hrest⟩

/-- Options are read from a list of pairs. -/
theorem yields_readOptions (h : writeValue (nestingLimit - 1) v = .ok bytes) :
    Yields (readOptions place) bytes (AreRead v) := by
  refine yields_list h fun items body hv hbody => ?_
  refine (yields_all hbody (fun _ _ _ hx i => yields_readOption hx) 0 []).imp ?_
  rintro _ ⟨read, rfl, hread⟩
  rw [hv]
  exact areRead_of_forall₂ hread

/-- The options of a checkpoint are read one by one. -/
theorem readAs_of_areRead {read : List (String × Value)}
    (h : AreRead (p.fieldValue .options) read) :
    List.Forall₂ ReadAs (namedOptions p.options) read := by
  obtain ⟨written, hwritten, hread⟩ := h
  rw [fieldValue_options] at hwritten
  rw [pairOf_injective.list_map (Value.list.inj hwritten)]
  exact hread

/-- Their names are those that were written. -/
theorem names_of_readAs {written read : List (String × Value)}
    (h : List.Forall₂ ReadAs written read) : read.map Prod.fst = written.map Prod.fst := by
  induction h with
  | nil => rfl
  | cons ho _ ih => rw [List.map_cons, List.map_cons, ih, ho.1]

/-- **Fields that are those of values**, as far as they were read. -/
structure Fields.Of (value : Field → Value) (fields : Fields) : Prop where
  bucket : ∀ s, fields.bucket = some s → value .bucket = .text s
  name : ∀ s, fields.name = some s → value .name = .text s
  generation : ∀ n, fields.generation = some n → value .generation = n.elim .null .int
  options : ∀ read, fields.options = some read → AreRead (value .options) read
  position : ∀ n, fields.position = some n → value .position = .int n
  isOpen : ∀ b, fields.isOpen = some b → value .isOpen = .bool b
  ended : ∀ b, fields.ended = some b → value .ended = .bool b
  chunkSize : ∀ n, fields.chunkSize = some n → value .chunkSize = .int n
  limit : ∀ n, fields.limit = some n → value .limit = .int n
  lastEtag : ∀ tag, fields.lastEtag = some tag → value .lastEtag = etagValue tag

/-- **A field is read as it is.** -/
theorem yields_readField {field : Field}
    (h : writeValue (nestingLimit - 1) (value field) = .ok bytes) (hf : fields.Of value) :
    Yields (readField fields field) bytes (Fields.Of value) := by
  cases field with
  | bucket =>
    refine (yields_readText h).bind_nil fun s hs => yields_pure { hf with bucket := ?_ }
    rintro _ ⟨⟩
    exact hs
  | name =>
    refine (yields_readText h).bind_nil fun s hs => yields_pure { hf with name := ?_ }
    rintro _ ⟨⟩
    exact hs
  | generation =>
    refine (yields_readInt? h).bind_nil fun n hn => yields_pure { hf with generation := ?_ }
    rintro _ ⟨⟩
    exact hn
  | options =>
    refine (yields_readOptions h).bind_nil fun read hread => yields_pure { hf with options := ?_ }
    rintro _ ⟨⟩
    exact hread
  | position =>
    refine (yields_readInt h).bind_nil fun n hn => yields_pure { hf with position := ?_ }
    rintro _ ⟨⟩
    exact hn
  | isOpen =>
    refine (yields_readBool h).bind_nil fun b hb => yields_pure { hf with isOpen := ?_ }
    rintro _ ⟨⟩
    exact hb
  | ended =>
    refine (yields_readBool h).bind_nil fun b hb => yields_pure { hf with ended := ?_ }
    rintro _ ⟨⟩
    exact hb
  | chunkSize =>
    refine (yields_readInt h).bind_nil fun n hn => yields_pure { hf with chunkSize := ?_ }
    rintro _ ⟨⟩
    exact hn
  | limit =>
    refine (yields_readInt h).bind_nil fun n hn => yields_pure { hf with limit := ?_ }
    rintro _ ⟨⟩
    exact hn
  | lastEtag =>
    refine (yields_readText? h).bind_nil fun tag htag => yields_pure { hf with lastEtag := ?_ }
    rintro _ ⟨⟩
    exact htag

/-- **The entries of any fields are read one after the other.** -/
theorem yields_readFields (left : List Field)
    (h : writeAll (writeEntry (writeValue (nestingLimit - 1)))
      (left.map fun field => (.text field.key, value field)) = .ok bytes)
    (hf : fields.Of value) : Yields (readFields left.length fields) bytes (Fields.Of value) := by
  induction left generalizing fields bytes with
  | nil =>
    cases h
    exact yields_pure hf
  | cons field left ih =>
    have hkey : writeValue (nestingLimit - 1) (.text field.key) = .ok (writeText field.key) :=
      writeValue_text (Nat.lt_trans (length_key field) (by decide))
    obtain ⟨entry, hentry, h⟩ := eq_ok_of_bind h
    obtain ⟨rest, hrest, h⟩ := eq_ok_of_bind h
    cases h
    rw [writeEntry, hkey, ok_bind] at hentry
    obtain ⟨written, hwritten, hentry⟩ := eq_ok_of_bind hentry
    cases hentry
    rw [List.append_assoc]
    refine (reads_readKey (length_key field)).yields.bind ?_
    rintro key rfl
    rw [ofKey?_key]
    exact (yields_readField hwritten hf).bind fun read hread => ih hrest hread

/-! ## Checkpoints -/

/-- **What a token with given values of its fields can hold**: those values, but
for the values of its options. -/
structure Echoes (value : Field → Value) (content : Content) : Prop where
  bucket : value .bucket = .text content.bucket
  name : value .name = .text content.name
  generation : value .generation = content.generation.elim .null .int
  options : AreRead (value .options) content.options
  position : value .position = .int content.position
  isOpen : value .isOpen = .bool content.isOpen
  ended : value .ended = .bool content.ended
  chunkSize : value .chunkSize = .int content.chunkSize
  limit : value .limit = .int content.limit
  lastEtag : value .lastEtag = etagValue content.lastEtag

/-- **What is read from a token is what was written.** -/
theorem echoes_of_token {token : List UInt8} {content : Content} (hw : tokenOf value = .ok token)
    (hr : readContent.run token = .ok content) : Echoes value content := by
  obtain ⟨_, hsize, hw⟩ := eq_ok_of_bind (eq_ok_of_mapError hw)
  obtain ⟨body, hbody, hw⟩ := eq_ok_of_bind hw
  cases hw
  have hnone : Fields.Of value {} :=
    ⟨nofun, nofun, nofun, nofun, nofun, nofun, nofun, nofun, nofun, nofun⟩
  have hread : Yields readContent (mapHead Field.all.length ++ body) (Echoes value) := by
    refine (reads_readMapHead (lt_of_checkSize hsize)).yields.bind ?_
    rintro count rfl
    rw [List.length_map]
    refine (yields_readFields Field.all hbody hnone).bind_nil fun fields hf => ?_
    refine (yields_need hf.bucket).nil_bind fun bucket hbucket => ?_
    refine (yields_need hf.name).nil_bind fun name hname => ?_
    refine (yields_need hf.generation).nil_bind fun generation hgeneration => ?_
    refine (yields_need hf.options).nil_bind fun options hoptions => ?_
    refine (yields_need hf.position).nil_bind fun position hposition => ?_
    refine (yields_need hf.isOpen).nil_bind fun isOpen hisOpen => ?_
    refine (yields_need hf.ended).nil_bind fun ended hended => ?_
    refine (yields_need hf.chunkSize).nil_bind fun chunkSize hchunkSize => ?_
    refine (yields_need hf.limit).nil_bind fun limit hlimit => ?_
    refine (yields_need hf.lastEtag).nil_bind fun lastEtag hlastEtag => yields_pure ?_
    exact ⟨hbucket, hname, hgeneration, hoptions, hposition, hisOpen, hended, hchunkSize, hlimit,
      hlastEtag⟩
  exact hread.of_run hr

/-- **The options of a checkpoint are read one by one.** -/
theorem options_of_token {token : List UInt8} {content : Content} (hw : p.token = .ok token)
    (hr : readContent.run token = .ok content) :
    List.Forall₂ ReadAs (namedOptions p.options) content.options :=
  readAs_of_areRead (echoes_of_token hw hr).options

/-- **What a token holds that is accepted.** -/
theorem ofToken_eq_ok {token : List UInt8} (h : ofToken token = .ok q) :
    ∃ content, readContent.run token = .ok content ∧ Echoes q.fieldValue content
      ∧ namedOptions q.options = content.options ∧ 0 ≤ content.position ∧ 0 ≤ content.limit := by
  obtain ⟨content, hcontent, h⟩ := eq_ok_of_bind h
  obtain ⟨kinds, hkinds, h⟩ := eq_ok_of_bind h
  obtain ⟨position, hposition, h⟩ := eq_ok_of_bind h
  obtain ⟨limit, hlimit, h⟩ := eq_ok_of_bind h
  obtain ⟨object, hobject, h⟩ := eq_ok_of_bind h
  cases h
  have hpos := bound_int_eq_ok hposition
  have hlim := bound_int_eq_ok hlimit
  obtain ⟨hbucket, hname, hgeneration⟩ := make_eq_ok (eq_ok_of_mapError hobject)
  have hnamed := namedOptions_zip hkinds
  refine ⟨content, eq_ok_of_mapError hcontent, ?_, hnamed, ?_, ?_⟩
  · exact {
      bucket := congrArg Value.text hbucket
      name := congrArg Value.text hname
      generation := hgeneration
      options := by
        rw [fieldValue_options, hnamed]
        exact ⟨content.options, rfl, List.forall₂_same.mpr fun _ _ => ⟨rfl, fun _ => rfl⟩⟩
      position := congrArg Value.int hpos
      isOpen := rfl
      ended := rfl
      chunkSize := rfl
      limit := congrArg Value.int hlim
      lastEtag := rfl }
  · rw [← hpos]
    exact Int.natCast_nonneg position
  · rw [← hlim]
    exact Int.natCast_nonneg limit

/-- **What a token is read as is what was written**, up to the values of
options. -/
theorem ofToken_echoes {token : List UInt8} (hw : p.token = .ok token)
    (hr : ofToken token = .ok q) :
    q.object = p.object ∧ q.scalars = p.scalars
      ∧ (q.options.map fun o => o.kind.wireName) = p.options.map fun o => o.kind.wireName := by
  obtain ⟨content, hcontent, hq, hnamed, -⟩ := ofToken_eq_ok hr
  have hp := echoes_of_token hw hcontent
  refine ⟨?_, ?_, ?_⟩
  · exact ObjectId.eq_of_parts (Value.text.inj (hq.bucket.trans hp.bucket.symm))
      (Value.text.inj (hq.name.trans hp.name.symm)) (hq.generation.trans hp.generation.symm)
  · show [q.fieldValue .position, q.fieldValue .isOpen, q.fieldValue .ended,
      q.fieldValue .chunkSize, q.fieldValue .limit, q.fieldValue .lastEtag]
      = [p.fieldValue .position, p.fieldValue .isOpen, p.fieldValue .ended,
        p.fieldValue .chunkSize, p.fieldValue .limit, p.fieldValue .lastEtag]
    rw [hq.position, hq.isOpen, hq.ended, hq.chunkSize, hq.limit, hq.lastEtag, hp.position,
      hp.isOpen, hp.ended, hp.chunkSize, hp.limit, hp.lastEtag]
  · have hnames := names_of_readAs (options_of_token hw hcontent)
    rw [← hnamed, namedOptions, namedOptions, List.map_map, List.map_map] at hnames
    exact hnames

end

end Checkpoint

/-! ## Channels -/

namespace Channel

/-- **A channel that takes up the read of another**, over the same object: at
its next byte, with its limit and its tag, without a chunk and without a change
noticed, and at the end only if the other had nothing left to serve. -/
structure TakesUp (c c' : Channel) : Prop where
  object_eq : c'.object = c.object
  pointer_eq : c'.pointer = c.pointer
  limit_eq : c'.limit = c.limit
  isOpen_eq : c'.isOpen = c.isOpen
  unread_eq : c'.unread = []
  ended_eq : c'.ended = (c.ended && c.unread.isEmpty)
  lastEtag_eq : c'.lastEtag = c.lastEtag
  unmodified : c'.modification = none

/-- **A channel in the place of another takes up its read.** -/
theorem takesUp_of_handedOver [Nesting] {c c' : Channel} (h : c.handedOver = .ok c') :
    c.TakesUp c' := by
  obtain ⟨token, hw, h⟩ := eq_ok_of_bind h
  obtain ⟨q, hr, h⟩ := eq_ok_of_bind h
  obtain ⟨hobject, hscalars, -⟩ := Checkpoint.ofToken_echoes hw hr
  obtain ⟨position, limit, fresh, chunkSize, lastEtag, hposition, hlimit, hfresh, -, htag, rfl⟩ :=
    Checkpoint.restore_eq_ok h
  have hmade := isFresh_of_opened hfresh
  obtain ⟨hserved, -⟩ : fresh.served = 0 ∧ fresh.modification = none :=
    (Made.unread_eq (.opened hfresh)).2
  -- the fields of the checkpoint, one by one
  obtain ⟨hp, hopen, hended, -, hl, hlast, -⟩ :
      q.position = .int c.pointer ∧ q.isOpen = .bool c.isOpen
        ∧ q.ended = .bool (c.ended && c.unread.isEmpty) ∧ q.chunkSize = .int c.chunkSize
        ∧ q.limit = .int c.limit ∧ q.lastEtag = etagValue c.lastEtag ∧ True := by
    unfold Checkpoint.scalars Checkpoint.capture at hscalars
    simp only [List.cons.injEq] at hscalars
    exact hscalars
  rw [hp, bound_natCast] at hposition
  rw [hl, bound_natCast] at hlimit
  cases hposition
  cases hlimit
  exact {
    object_eq := hmade.object_eq.trans hobject
    pointer_eq := by
      show c.pointer + fresh.served = c.pointer
      rw [hserved, Nat.add_zero]
    limit_eq := rfl
    isOpen_eq := by
      show q.isOpen.truthy = c.isOpen
      rw [hopen]
      rfl
    unread_eq := hmade.unread_eq
    ended_eq := by
      show q.ended.truthy = _
      rw [hended]
      rfl
    lastEtag_eq := etagValue_injective (htag.symm.trans hlast)
    unmodified := hmade.unmodified }

end Channel

end RangeReader

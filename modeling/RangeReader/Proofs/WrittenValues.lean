import RangeReader.Proofs.Coherence
import RangeReader.Proofs.Token

/-!
# What was written

Not every value can be written, and not every value that was written is read
back as itself: a map with equal keys is not, and a value of a wrong kind is
refused. Two things are certain all the same. There was room for a value that was
written, and for each of its parts. And a reader takes from the bytes of a value
exactly those bytes, also from a value that it would read as another one, so
what stands behind it is read from where it was put.

`Yields` is what the proofs are about. It says what a reader gives where it
does give something, so nothing is asked of the value, and a reader that refuses
yields whatever one likes.
-/

namespace RangeReader

/-- A result with its faults renamed is the result. -/
theorem eq_ok_of_mapError {ε ε' α : Type} {x : Except ε α} {f : ε → ε'} {y : α}
    (h : x.mapError f = .ok y) : x = .ok y := by
  cases x with
  | error e => cases h
  | ok a =>
    cases h
    rfl

theorem mapError_eq_ok_iff {ε ε' α : Type} {x : Except ε α} {f : ε → ε'} {y : α} :
    x.mapError f = .ok y ↔ x = .ok y := by
  refine ⟨eq_ok_of_mapError, ?_⟩
  rintro rfl
  rfl

namespace MessagePack

/-! ## What was written had room -/

variable {depth : Nat} {v : Value} {bytes : List UInt8} {place : Place}

/-- An integer that is written is in range. -/
theorem isWord_of_writeInt {n : Int} (h : writeInt n = .ok bytes) : IsWord n := by
  unfold writeInt at h
  unfold IsWord
  simp only at h
  split at h
  · repeat' split at h
    all_goals first | omega | cases h
  · repeat' split at h
    all_goals first | omega | cases h

theorem isWord_of_writeValue {n : Int} (h : writeValue depth (.int n) = .ok bytes) : IsWord n := by
  cases depth with
  | zero => cases h
  | succ depth => exact isWord_of_writeInt h

/-- A text that is written is short enough. -/
theorem length_of_writeText {s : String}
    (h : writeValue depth (.text s) = .ok bytes) : (Text.Utf8.encode s).length < sizeLimit := by
  cases depth with
  | zero => cases h
  | succ depth =>
    rw [writeValue] at h
    obtain ⟨_, hsize, -⟩ := eq_ok_of_bind h
    exact lt_of_checkSize hsize

/-- So is a byte string. -/
theorem length_of_writeBytes {b : List UInt8} (h : writeValue depth (.bytes b) = .ok bytes) :
    b.length < sizeLimit := by
  cases depth with
  | zero => cases h
  | succ depth =>
    rw [writeValue] at h
    obtain ⟨_, hsize, -⟩ := eq_ok_of_bind h
    exact lt_of_checkSize hsize

/-- Each of the things that are written one after the other is written. -/
theorem written_of_writeAll {γ : Type} {write : γ → Except NoRoom (List UInt8)} {xs : List γ}
    {body : List UInt8} (h : writeAll write xs = .ok body) :
    ∀ x ∈ xs, ∃ bytes, write x = .ok bytes := by
  induction xs generalizing body with
  | nil => exact nofun
  | cons x xs ih =>
    obtain ⟨first, hfirst, h⟩ := eq_ok_of_bind h
    obtain ⟨rest, hrest, -⟩ := eq_ok_of_bind h
    exact List.forall_mem_cons.mpr ⟨⟨first, hfirst⟩, ih hrest⟩

/-- The items of a list that is written are written. -/
theorem written_of_writeList {items : List Value}
    (h : writeValue (depth + 1) (.list items) = .ok bytes) :
    ∀ v ∈ items, ∃ bytes, writeValue depth v = .ok bytes := by
  rw [writeValue] at h
  obtain ⟨_, -, h⟩ := eq_ok_of_bind h
  obtain ⟨body, hbody, -⟩ := eq_ok_of_bind h
  exact written_of_writeAll hbody

/-- The values of a map that is written are written. -/
theorem written_of_writeMap {entries : List (Value × Value)}
    (h : writeValue (depth + 1) (.map entries) = .ok bytes) :
    ∀ e ∈ entries, ∃ bytes, writeValue depth e.2 = .ok bytes := by
  rw [writeValue] at h
  obtain ⟨_, -, h⟩ := eq_ok_of_bind h
  obtain ⟨body, hbody, -⟩ := eq_ok_of_bind h
  intro e he
  obtain ⟨_, hentry⟩ := written_of_writeAll hbody e he
  obtain ⟨_, -, hentry⟩ := eq_ok_of_bind hentry
  obtain ⟨value, hvalue, -⟩ := eq_ok_of_bind hentry
  exact ⟨value, hvalue⟩

/-! ## What readers give where they do -/

/-- **What a reader can give for bytes**: if it accepts, it takes them and no
more, and its result is of a kind. -/
def Yields {α : Type} (reader : Reader α) (bytes : List UInt8) (P : α → Prop) : Prop :=
  ∀ (offset : Nat) (rest : List UInt8) (x : α) (cursor : Cursor),
    reader ⟨offset, bytes ++ rest⟩ = .ok (x, cursor) →
      cursor = ⟨offset + bytes.length, rest⟩ ∧ P x

variable {α β : Type} {P : α → Prop} {Q : β → Prop}

theorem Reads.yields {reader : Reader α} {bytes : List UInt8} {x : α} (h : Reads reader bytes x) :
    Yields reader bytes (· = x) := by
  intro offset rest y cursor hy
  rw [h offset rest] at hy
  cases hy
  exact ⟨rfl, rfl⟩

theorem Yields.imp {P' : α → Prop} {reader : Reader α} {bytes : List UInt8}
    (himp : ∀ x, P x → P' x) (h : Yields reader bytes P) : Yields reader bytes P' := by
  intro offset rest x cursor hx
  obtain ⟨hcursor, hP⟩ := h offset rest x cursor hx
  exact ⟨hcursor, himp x hP⟩

theorem yields_pure {x : α} (h : P x) : Yields (pure x) [] P :=
  (reads_pure x).yields.imp fun y (hy : y = x) => hy ▸ h

theorem yields_throw (fault : Fault) (bytes : List UInt8) :
    Yields (throw fault : Reader α) bytes P := nofun

/-- Bytes are taken one part after the other. -/
theorem Yields.bind {reader : Reader α} {next : α → Reader β} {first second : List UInt8}
    (hx : Yields reader first P) (hy : ∀ x, P x → Yields (next x) second Q) :
    Yields (reader >>= next) (first ++ second) Q := by
  intro offset rest y cursor hrun
  rw [List.append_assoc] at hrun
  obtain ⟨⟨x, middle⟩, hfirst, hsecond⟩ := eq_ok_of_bind
    (show (reader ⟨offset, first ++ (second ++ rest)⟩ >>= fun p => next p.1 p.2)
      = .ok (y, cursor) from hrun)
  obtain ⟨rfl, hP⟩ := hx _ _ _ _ hfirst
  obtain ⟨rfl, hQ⟩ := hy x hP _ _ _ _ hsecond
  rw [List.length_append, Nat.add_assoc]
  exact ⟨rfl, hQ⟩

/-- A part without bytes comes first. -/
theorem Yields.nil_bind {reader : Reader α} {next : α → Reader β} {bytes : List UInt8}
    (hx : Yields reader [] P) (hy : ∀ x, P x → Yields (next x) bytes Q) :
    Yields (reader >>= next) bytes Q :=
  hx.bind hy

/-- A part without bytes comes last. -/
theorem Yields.bind_nil {reader : Reader α} {next : α → Reader β} {bytes : List UInt8}
    (hx : Yields reader bytes P) (hy : ∀ x, P x → Yields (next x) [] Q) :
    Yields (reader >>= next) bytes Q := by
  have h := hx.bind hy
  rw [List.append_nil] at h
  exact h

theorem Yields.map {reader : Reader α} {bytes : List UInt8} (f : α → β)
    (h : Yields reader bytes P) (hf : ∀ x, P x → Q (f x)) : Yields (f <$> reader) bytes Q := by
  rw [map_eq_pure_bind]
  exact h.bind_nil fun x hx => yields_pure (hf x hx)

/-- What is refused is refused, whatever follows its head. -/
theorem yields_refuse (head : Head) (wanted : Wanted) (place : Place) (bytes : List UInt8) :
    Yields (refuse head wanted place : Reader α) bytes P := by
  intro offset rest x cursor hrun
  cases head with
  | text size | bytes size | extension size =>
    obtain ⟨_, -, hthrow⟩ := eq_ok_of_bind hrun
    cases hthrow
  | _ => cases hrun

/-! ## Values -/

/-- The head that a value is written with. -/
def headOf : Value → Head
  | .null => .null
  | .bool b => .bool b
  | .int n => .int n
  | .float x => .float x
  | .text s => .text (Text.Utf8.encode s).length
  | .bytes b => .bytes b.length
  | .list items => .list items.length
  | .map entries => .map entries.length
  | .moment t => .extension (Timestamp.ofMoment t).toBytes.length
  | .extension _ data => .extension data.length

/-- What is written after the head of a value, with its parts down to a depth. -/
def bodyOf (depth : Nat) : Value → Except NoRoom (List UInt8)
  | .text s => .ok (Text.Utf8.encode s)
  | .bytes b => .ok b
  | .list items => writeAll (writeValue depth) items
  | .map entries => writeAll (writeEntry (writeValue depth)) entries
  | .moment t => .ok (Timestamp.typeByte :: (Timestamp.ofMoment t).toBytes)
  | .extension type data => .ok (type :: data)
  | _ => .ok []

/-- **A value is written as its head and its body.** -/
theorem head_of_write (h : writeValue (depth + 1) v = .ok bytes) :
    ∃ first body, bodyOf depth v = .ok body ∧ bytes = first ++ body
      ∧ Reads readHead first (headOf v) := by
  have hsmall {first : List UInt8} (hread : Reads readHead first (headOf v))
      (hbody : bodyOf depth v = .ok []) (hwrite : writeValue (depth + 1) v = .ok first) :
      ∃ first body, bodyOf depth v = .ok body ∧ bytes = first ++ body
        ∧ Reads readHead first (headOf v) := by
    rw [hwrite] at h
    cases h
    exact ⟨bytes, [], hbody, (List.append_nil bytes).symm, hread⟩
  cases v with
  | null => exact hsmall reads_null rfl rfl
  | bool b => exact hsmall (reads_bool b) rfl rfl
  | int n =>
    obtain ⟨_, hwrite, hread⟩ := reads_int (isWord_of_writeInt h)
    exact hsmall hread rfl hwrite
  | float x =>
    have hlt : x.bits.toNat < 256 ^ 8 := x.bits.toNat_lt
    have hbits := (reads_readNat hlt).map fun bits => Head.float ⟨UInt64.ofNat bits⟩
    rw [UInt64.ofNat_toNat] at hbits
    exact hsmall (reads_readHead rfl hbits) rfl rfl
  | text s =>
    rw [writeValue] at h
    obtain ⟨_, hsize, h⟩ := eq_ok_of_bind h
    cases h
    exact ⟨_, _, rfl, rfl, reads_textHead (lt_of_checkSize hsize)⟩
  | bytes b =>
    rw [writeValue] at h
    obtain ⟨_, hsize, h⟩ := eq_ok_of_bind h
    cases h
    exact ⟨_, _, rfl, rfl, reads_bytesHead (lt_of_checkSize hsize)⟩
  | list items =>
    rw [writeValue] at h
    obtain ⟨_, hsize, h⟩ := eq_ok_of_bind h
    obtain ⟨body, hbody, h⟩ := eq_ok_of_bind h
    cases h
    exact ⟨_, _, hbody, rfl, reads_listHead (lt_of_checkSize hsize)⟩
  | map entries =>
    rw [writeValue] at h
    obtain ⟨_, hsize, h⟩ := eq_ok_of_bind h
    obtain ⟨body, hbody, h⟩ := eq_ok_of_bind h
    cases h
    exact ⟨_, _, hbody, rfl, reads_mapHead (lt_of_checkSize hsize)⟩
  | moment t =>
    cases h
    exact ⟨_, _, rfl, rfl, reads_extensionHead (Timestamp.length_toBytes_lt _)⟩
  | extension type data =>
    rw [writeValue] at h
    obtain ⟨_, hsize, h⟩ := eq_ok_of_bind h
    cases h
    exact ⟨_, _, rfl, rfl, reads_extensionHead (lt_of_checkSize hsize)⟩

/-- What is read behind a head is read from the body. -/
theorem yields_of_head {next : Head → Reader α} (h : writeValue (depth + 1) v = .ok bytes)
    (hnext : ∀ body, bodyOf depth v = .ok body → Yields (next (headOf v)) body P) :
    Yields (readHead >>= next) bytes P := by
  obtain ⟨first, body, hbody, rfl, hread⟩ := head_of_write h
  exact hread.yields.bind fun head hhead => hhead ▸ hnext body hbody

/-! ## Items of one kind -/

theorem yields_readText (h : writeValue (depth + 1) v = .ok bytes) :
    Yields (readText place) bytes fun s => v = .text s := by
  refine yields_of_head h fun body hbody => ?_
  cases v with
  | text s =>
    cases hbody
    exact (reads_textBody s).yields.imp fun t (ht : t = s) => ht ▸ rfl
  | _ => exact yields_refuse _ _ _ _

theorem yields_readText? (h : writeValue (depth + 1) v = .ok bytes) :
    Yields (readText? place) bytes fun s => v = etagValue s := by
  refine yields_of_head h fun body hbody => ?_
  cases v with
  | text s =>
    cases hbody
    exact (reads_textBody s).yields.map some fun t (ht : t = s) => ht ▸ rfl
  | null =>
    cases hbody
    exact yields_pure rfl
  | _ => exact yields_refuse _ _ _ _

theorem yields_readInt (h : writeValue (depth + 1) v = .ok bytes) :
    Yields (readInt place) bytes fun n => v = .int n := by
  refine yields_of_head h fun body hbody => ?_
  cases v with
  | int n =>
    cases hbody
    exact yields_pure rfl
  | _ => exact yields_refuse _ _ _ _

theorem yields_readInt? (h : writeValue (depth + 1) v = .ok bytes) :
    Yields (readInt? place) bytes fun n => v = n.elim .null .int := by
  refine yields_of_head h fun body hbody => ?_
  cases v with
  | int n =>
    cases hbody
    exact yields_pure rfl
  | null =>
    cases hbody
    exact yields_pure rfl
  | _ => exact yields_refuse _ _ _ _

theorem yields_readBool (h : writeValue (depth + 1) v = .ok bytes) :
    Yields (readBool place) bytes fun b => v = .bool b := by
  refine yields_of_head h fun body hbody => ?_
  cases v with
  | bool b =>
    cases hbody
    exact yields_pure rfl
  | _ => exact yields_refuse _ _ _ _

/-- What is read behind the head of a list is read from its items. -/
theorem yields_list {next : Nat → Reader α} (h : writeValue (depth + 1) v = .ok bytes)
    (hnext : ∀ items body, v = .list items → writeAll (writeValue depth) items = .ok body →
      Yields (next items.length) body P) :
    Yields (readListHead place >>= next) bytes P := by
  have hrefuse (head : Head) (body : List UInt8) :
      Yields (refuse head ⟨.list, false⟩ place >>= next) body P :=
    (yields_refuse (P := fun _ => False) head _ place body).bind_nil fun _ => False.elim
  unfold readListHead
  rw [bind_assoc]
  refine yields_of_head h fun body hbody => ?_
  cases v with
  | list items => exact hnext items body rfl hbody
  | _ => exact hrefuse _ _

/-- **Things written one after the other** are collected in order, each of them as
what it is read as. -/
theorem yields_all {γ : Type} {write : γ → Except NoRoom (List UInt8)} {R : γ → α → Prop}
    {item : Nat → Reader α} {xs : List γ} {body : List UInt8} (h : writeAll write xs = .ok body)
    (hitem : ∀ x ∈ xs, ∀ bytes, write x = .ok bytes → ∀ i, Yields (item i) bytes (R x))
    (i : Nat) (before : List α) :
    Yields (collect item xs.length i before) body fun ys =>
      ∃ read, ys = before.reverse ++ read ∧ List.Forall₂ R xs read := by
  induction xs generalizing i before body with
  | nil =>
    cases h
    exact yields_pure ⟨[], (List.append_nil _).symm, .nil⟩
  | cons x xs ih =>
    obtain ⟨first, hfirst, h⟩ := eq_ok_of_bind h
    obtain ⟨rest, hrest, h⟩ := eq_ok_of_bind h
    cases h
    refine (hitem x List.mem_cons_self first hfirst i).bind fun y hy => ?_
    have hothers := ih hrest (fun z hz => hitem z (List.mem_cons_of_mem x hz)) (i + 1) (y :: before)
    refine hothers.imp fun ys ⟨read, hys, hread⟩ => ⟨y :: read, ?_, .cons hy hread⟩
    rw [hys, List.reverse_cons, List.append_assoc]
    rfl

/-- An entry of a map, whatever its key and its value are read as. -/
theorem yields_readEntry {write : Value → Except NoRoom (List UInt8)} {entry : Value × Value}
    {key value : Reader Value} (h : writeEntry write entry = .ok bytes)
    (hkey : ∀ {v bytes}, write v = .ok bytes → Yields key bytes fun _ => True)
    (hvalue : ∀ {v bytes}, write v = .ok bytes → Yields value bytes fun _ => True) :
    Yields (readEntry key value) bytes fun _ => True := by
  obtain ⟨first, hfirst, h⟩ := eq_ok_of_bind h
  obtain ⟨second, hsecond, h⟩ := eq_ok_of_bind h
  cases h
  refine (hkey hfirst).bind fun k _ => (hvalue hsecond).bind_nil fun v _ => ?_
  split
  · exact yields_pure trivial
  · intro offset rest x cursor hrun
    cases hrun

/-- The body of an extension, which may be that of a point in time. -/
theorem yields_extensionBody (type : UInt8) (data : List UInt8) :
    Yields (extensionBody data.length place) (type :: data) fun _ => True := by
  refine (reads_readByte type).yields.bind fun _ _ => ?_
  refine (reads_takeBytes rfl).yields.bind_nil fun _ _ => ?_
  split
  · exact yields_pure trivial
  · split
    · exact yields_throw _ _
    · exact yields_pure trivial

/-- The result of a run is one of the reader, at the first of the bytes. -/
theorem ok_of_run {reader : Reader α} {x : α} (h : reader.run bytes = .ok x) :
    ∃ cursor, reader ⟨0, bytes⟩ = .ok (x, cursor) := by
  obtain ⟨⟨y, cursor⟩, hread, h⟩ := eq_ok_of_bind h
  dsimp only at h
  split at h
  · cases h
    exact ⟨cursor, hread⟩
  · cases h

/-- The result of a run over what a reader yields something for. -/
theorem Yields.of_run {reader : Reader α} {x : α} (h : Yields reader bytes P)
    (hr : reader.run bytes = .ok x) : P x := by
  obtain ⟨cursor, hread⟩ := ok_of_run hr
  rw [← List.append_nil bytes] at hread
  exact (h 0 [] _ _ hread).2

/-- **A value is read from its bytes**, if as another one. -/
theorem yields_readValue (deep : Nat) (h : writeValue depth v = .ok bytes) :
    Yields (readValue deep place) bytes fun _ => True := by
  induction deep generalizing depth v bytes place with
  | zero => exact yields_throw _ _
  | succ deep ih =>
    obtain _ | depth := depth
    · cases h
    unfold readValue
    refine yields_of_head h fun body hbody => ?_
    cases v with
    | text s =>
      cases hbody
      exact (reads_textBody s).yields.map _ fun _ _ => trivial
    | bytes b =>
      cases hbody
      exact (reads_takeBytes rfl).yields.map _ fun _ _ => trivial
    -- nothing is known of the parts but that they are there
    | list items =>
      refine (yields_all (R := fun _ _ => True) hbody ?_ 0 []).map _ fun _ _ => trivial
      exact fun x _ bytes hx i => ih hx
    | map entries =>
      refine (yields_all (R := fun _ _ => True) hbody ?_ 0 []).map _ fun _ _ => trivial
      exact fun e _ bytes he i => yields_readEntry he (fun hk => ih hk) (fun hv => ih hv)
    | moment t =>
      cases hbody
      exact yields_extensionBody _ _
    | extension type data =>
      cases hbody
      exact yields_extensionBody type data
    | _ =>
      cases hbody
      exact yields_pure trivial

/-- **A value that can travel is read as itself.** -/
theorem yields_of_portable (h : writeValue depth v = .ok bytes) :
    Yields (readValue depth place) bytes fun read => v.Portable depth → read = v := by
  by_cases hv : v.Portable depth
  · obtain ⟨written, hwrite, hread⟩ := travels_of_portable depth v hv
    rw [hwrite] at h
    cases h
    exact (hread place).yields.imp fun read (hread : read = v) _ => hread
  · exact (yields_readValue depth h).imp fun _ _ hportable => absurd hportable hv

end MessagePack

end RangeReader

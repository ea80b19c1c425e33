import RangeReader.Proofs.Echo

/-!
# What can be wrong with a token

Bytes that are no token are refused as an argument, for whatever reason, with
one exception. A reader that meets items nested too deeply gives up with a fault
of another kind, which is no refusal of an argument and is passed on as it is.

There are two things to say about the exception. Some bytes meet it
(`deepOption`). And few do: every level of nesting is opened by a byte of its
own, so bytes that meet it have at least as many bytes that open a list or a
map as there are levels. `Spends` counts them: what a reader has certainly read
of such bytes where it succeeds, and what must have been there where it gives
up.
-/

namespace RangeReader

/-- A failure of two computations, one after the other, is one of the first, or
one of the second after a result of the first. -/
theorem error_of_bind {ε α β : Type} {x : Except ε α} {f : α → Except ε β} {e : ε}
    (h : (x >>= f) = .error e) : x = .error e ∨ ∃ a, x = .ok a ∧ f a = .error e := by
  cases x with
  | error e' =>
    cases h
    exact .inl rfl
  | ok a => exact .inr ⟨a, rfl, h⟩

namespace MessagePack

/-! ## Bytes that open a level -/

/-- **Whether a byte can open a list or a map.** -/
def opens (b : UInt8) : Bool :=
  opcodeKind? b.toNat == some .list || opcodeKind? b.toNat == some .map

/-- The number of bytes that can. -/
def openers (bytes : List UInt8) : Nat := bytes.countP opens

/-- The number of levels that a head opens. -/
def Head.opened : Head → Nat
  | .list _ => 1
  | .map _ => 1
  | _ => 0

theorem openers_cons (b : UInt8) (bytes : List UInt8) :
    openers (b :: bytes) = openers bytes + (opens b).toNat := by
  unfold openers
  rw [List.countP_cons]
  cases opens b <;> rfl

theorem openers_drop_le (n : Nat) (bytes : List UInt8) : openers (bytes.drop n) ≤ openers bytes :=
  (List.drop_sublist n bytes).countP_le

/-! ## What readers spend -/

/-- **What a reader spends of the bytes that open levels.** Where it succeeds, it
has read at least as many as its result has opened; where it gives up for the
depth, there are at least `deep` of them. -/
structure Spends {α : Type} (reader : Reader α) (opened : α → Nat) (deep : Nat) : Prop where
  of_ok : ∀ {cursor x after}, reader cursor = .ok (x, after) →
    openers after.rest + opened x ≤ openers cursor.rest
  of_tooDeep : ∀ {cursor}, reader cursor = .error .tooDeep → deep ≤ openers cursor.rest

variable {α β : Type} {opened : α → Nat} {deep : Nat}

theorem spends_pure {x : α} (h : opened x = 0) (deep : Nat) : Spends (pure x) opened deep where
  of_ok hx := by
    cases hx
    rw [h, Nat.add_zero]
  of_tooDeep := nofun

theorem spends_result (x : α) (deep : Nat) : Spends (pure x) (fun _ => 0) deep :=
  spends_pure (by rfl) deep

theorem spends_throw {fault : Fault} (h : fault ≠ .tooDeep) (deep : Nat) :
    Spends (throw fault : Reader α) opened deep where
  of_ok := nofun
  of_tooDeep hx := by
    cases hx
    exact absurd rfl h

theorem spends_tooDeep : Spends (throw .tooDeep : Reader α) opened 0 where
  of_ok := nofun
  of_tooDeep _ := Nat.zero_le _

/-- **One after the other.** -/
theorem Spends.bind {reader : Reader α} {next : α → Reader β} {total : β → Nat}
    (hx : Spends reader opened deep)
    (hy : ∀ x, Spends (next x) (fun y => total y - opened x) (deep - opened x)) :
    Spends (reader >>= next) total deep where
  of_ok h := by
    obtain ⟨⟨x, middle⟩, hfirst, hsecond⟩ := eq_ok_of_bind h
    have := hx.of_ok hfirst
    have := (hy x).of_ok hsecond
    omega
  of_tooDeep h := by
    rcases error_of_bind h with hfirst | ⟨⟨x, middle⟩, hfirst, hsecond⟩
    · exact hx.of_tooDeep hfirst
    · have := hx.of_ok hfirst
      have := (hy x).of_tooDeep hsecond
      omega

/-- One after the other, where the result is not known to have opened levels. -/
theorem Spends.then {reader : Reader α} {next : α → Reader β} (hx : Spends reader opened deep)
    (hy : ∀ x, Spends (next x) (fun _ => 0) (deep - opened x)) :
    Spends (reader >>= next) (fun _ => 0) deep :=
  hx.bind fun x => by
    simp only [Nat.zero_sub]
    exact hy x

theorem Spends.map {reader : Reader α} (f : α → β) (h : Spends reader (fun _ => 0) deep) :
    Spends (f <$> reader) (fun _ => 0) deep := by
  rw [map_eq_pure_bind]
  exact h.then fun x => spends_result (f x) _

theorem spends_get (deep : Nat) : Spends (get : Reader Cursor) (fun _ => 0) deep where
  of_ok h := by
    cases h
    exact Nat.le_refl _
  of_tooDeep := nofun

theorem spends_readByte (deep : Nat) : Spends readByte (fun b => (opens b).toNat) deep where
  of_ok {cursor b after} h := by
    unfold readByte at h
    split at h
    · cases h
    · rename_i hrest
      cases h
      rw [hrest, openers_cons]
  of_tooDeep {cursor} h := by
    unfold readByte at h
    split at h <;> cases h

/-- A byte, whatever it opens. -/
theorem spends_readOpcode (deep : Nat) : Spends readByte (fun _ => 0) deep where
  of_ok h := Nat.le_trans (Nat.le_add_right _ _) ((spends_readByte deep).of_ok h)
  of_tooDeep := (spends_readByte deep).of_tooDeep

theorem spends_takeBytes (n deep : Nat) : Spends (takeBytes n) (fun _ => 0) deep where
  of_ok {cursor front after} h := by
    unfold takeBytes at h
    dsimp only at h
    split at h
    · cases h
    · cases h
      rw [List.splitAt_eq]
      exact openers_drop_le n cursor.rest
  of_tooDeep {cursor} h := by
    unfold takeBytes at h
    dsimp only at h
    split at h <;> cases h

/-! ## Heads -/

/-- A number in a head opens what the head does. -/
theorem spends_number {reader : Reader α} (h : ∀ deep, Spends reader (fun _ => 0) deep)
    {head : α → Head} {count : Nat} (hhead : ∀ x, (head x).opened ≤ count) (deep : Nat) :
    Spends (head <$> reader) (fun made => made.opened - count) deep := by
  rw [map_eq_pure_bind]
  exact (h deep).bind fun x => spends_pure (by have := hhead x; omega) _

theorem spends_readNat (width deep : Nat) : Spends (readNat width) (fun _ => 0) deep :=
  (spends_takeBytes width deep).map _

/-- A number of some bytes as an integer. -/
theorem spends_readNatCast (width deep : Nat) :
    Spends (do let n ← readNat width; pure (n : Int)) (fun _ => 0) deep :=
  (spends_readNat width deep).then fun n => spends_result (n : Int) _

theorem spends_readSigned (width deep : Nat) : Spends (readSigned width) (fun _ => 0) deep :=
  (spends_takeBytes width deep).map _

/-- A byte that opens a list or a map counts for one. -/
theorem opens_of_kind {b : UInt8}
    (h : opcodeKind? b.toNat = some .list ∨ opcodeKind? b.toNat = some .map) :
    (opens b).toNat = 1 := by
  unfold opens
  rcases h with h | h <;> rw [h] <;> rfl

/-- **A head that opens a level starts with a byte that does.** -/
theorem spends_headOf {opcode : UInt8} {reader : Reader Head}
    (h : headOf? opcode.toNat = some reader) (deep : Nat) :
    Spends reader (fun head => head.opened - (opens opcode).toNat) deep := by
  have hpure {head : Head} (hhead : head.opened ≤ (opens opcode).toNat) :
      Spends (pure head) (fun head => head.opened - (opens opcode).toNat) deep :=
    spends_pure (by omega) deep
  have hkind (hopens : opcodeKind? opcode.toNat = some .list
      ∨ opcodeKind? opcode.toNat = some .map) : 1 ≤ (opens opcode).toNat :=
    Nat.le_of_eq (opens_of_kind hopens).symm
  unfold headOf? at h
  split at h
  · cases h
    exact hpure (Nat.zero_le _)
  · split at h
    · cases h
      refine hpure (hkind (.inr ?_))
      unfold opcodeKind?
      rw [if_neg (by omega), if_pos (by omega)]
    · split at h
      · cases h
        refine hpure (hkind (.inl ?_))
        unfold opcodeKind?
        rw [if_neg (by omega), if_neg (by omega), if_pos (by omega)]
      · split at h
        · cases h
          exact hpure (Nat.zero_le _)
        · split at h
          · cases h
            exact hpure (Nat.zero_le _)
          -- opcodes with a meaning of their own, of which four open a level
          · split at h <;> cases h
            all_goals first
              | exact hpure (Nat.zero_le _)
              | refine spends_number (spends_readSigned _) (fun n => ?_) deep
                exact Nat.zero_le _
              | refine spends_number (spends_readNatCast _) (fun n => ?_) deep
                exact Nat.zero_le _
              | refine spends_number (spends_readNat _) (fun n => ?_) deep
                first
                  | exact Nat.zero_le _
                  | rename_i hn
                    exact hkind (by rw [hn]; decide)

theorem spends_readHead (deep : Nat) : Spends readHead Head.opened deep := by
  refine (spends_get deep).bind fun start => (spends_readByte _).bind fun opcode => ?_
  split
  · rename_i head hhead
    exact spends_headOf hhead _
  · exact spends_throw (by nofun) _

/-! ## Items -/

variable {place : Place}

theorem spends_discard {reader : Reader α} (h : Spends reader (fun _ => 0) deep) :
    Spends (discard reader) (fun _ => 0) deep :=
  h.map fun _ => ()

theorem spends_textBody (size deep : Nat) : Spends (textBody size) (fun _ => 0) deep := by
  refine (spends_takeBytes size deep).then fun bytes => ?_
  split
  · exact spends_result _ _
  · exact spends_throw (by nofun) _

theorem spends_refuse (head : Head) (wanted : Wanted) (deep : Nat) :
    Spends (refuse head wanted place : Reader α) opened deep := by
  have hthrow (deep : Nat) :
      Spends (throw (.mismatch wanted head.kind place) : Reader α) (fun y => opened y - 0) deep :=
    spends_throw (by nofun) deep
  cases head with
  | text size | bytes size | extension size =>
    exact (spends_discard (spends_takeBytes _ deep)).bind fun _ => hthrow _
  | _ => exact hthrow deep

theorem spends_readText (deep : Nat) : Spends (readText place) (fun _ => 0) deep := by
  refine (spends_readHead deep).then fun head => ?_
  cases head with
  | text size => exact spends_textBody _ _
  | _ => exact spends_refuse _ _ _

theorem spends_readText? (deep : Nat) : Spends (readText? place) (fun _ => 0) deep := by
  refine (spends_readHead deep).then fun head => ?_
  cases head with
  | text size => exact (spends_textBody _ _).map some
  | null => exact spends_result none _
  | _ => exact spends_refuse _ _ _

theorem spends_readInt (deep : Nat) : Spends (readInt place) (fun _ => 0) deep := by
  refine (spends_readHead deep).then fun head => ?_
  cases head with
  | int n => exact spends_result n _
  | _ => exact spends_refuse _ _ _

theorem spends_readInt? (deep : Nat) : Spends (readInt? place) (fun _ => 0) deep := by
  refine (spends_readHead deep).then fun head => ?_
  cases head with
  | int n => exact spends_result (some n) _
  | null => exact spends_result none _
  | _ => exact spends_refuse _ _ _

theorem spends_readBool (deep : Nat) : Spends (readBool place) (fun _ => 0) deep := by
  refine (spends_readHead deep).then fun head => ?_
  cases head with
  | bool b => exact spends_result b _
  | _ => exact spends_refuse _ _ _

theorem spends_readListHead (deep : Nat) : Spends (readListHead place) (fun _ => 1) deep := by
  refine (spends_readHead deep).bind fun head => ?_
  cases head with
  | list count => exact spends_pure (by rfl) _
  | _ => exact spends_refuse _ _ _

theorem spends_readMapHead (deep : Nat) : Spends (readMapHead place) (fun _ => 1) deep := by
  refine (spends_readHead deep).bind fun head => ?_
  cases head with
  | map count => exact spends_pure (by rfl) _
  | _ => exact spends_refuse _ _ _

/-- Items one after the other spend what each of them does. -/
theorem spends_collect {item : Nat → Reader α} (h : ∀ i, Spends (item i) (fun _ => 0) deep)
    (left i : Nat) (before : List α) : Spends (collect item left i before) (fun _ => 0) deep := by
  induction left generalizing i before with
  | zero => exact spends_result _ _
  | succ left ih => exact (h i).then fun x => ih (i + 1) (x :: before)

theorem spends_readEntry {key value : Reader Value} (hkey : Spends key (fun _ => 0) deep)
    (hvalue : Spends value (fun _ => 0) deep) :
    Spends (readEntry key value) (fun _ => 0) deep := by
  refine hkey.then fun k => hvalue.then fun v => ?_
  split
  · exact spends_result _ _
  · exact (spends_get _).then fun cursor => spends_throw (by nofun) _

theorem spends_extensionBody (size deep : Nat) :
    Spends (extensionBody size place) (fun _ => 0) deep := by
  refine (spends_readOpcode deep).then fun type => (spends_takeBytes size _).then fun data => ?_
  split
  · exact spends_result _ _
  · split
    · exact spends_throw (by nofun) _
    · exact spends_result _ _

/-- **A value that is nested too deeply for a reader** has a byte for each of its
levels. -/
theorem spends_readValue (depth : Nat) (place : Place) :
    Spends (readValue depth place) (fun _ => 0) depth := by
  induction depth generalizing place with
  | zero => exact spends_tooDeep
  | succ depth ih =>
    unfold readValue
    refine (spends_readHead _).then fun head => ?_
    cases head with
    | text size => exact (spends_textBody _ _).map _
    | bytes size => exact (spends_takeBytes _ _).map _
    | list count => exact (spends_collect (fun i => ih _) count 0 []).map _
    | map count =>
      exact (spends_collect (fun i => spends_readEntry (ih _) (ih _)) count 0 []).map _
    | extension size => exact spends_extensionBody _ _
    | _ => exact spends_result _ _

/-- So has one that is passed over. -/
theorem spends_skipValue (depth : Nat) : Spends (skipValue depth) (fun _ => 0) depth := by
  induction depth with
  | zero => exact spends_tooDeep
  | succ depth ih =>
    unfold skipValue
    refine (spends_readHead _).then fun head => ?_
    cases head with
    | text size | bytes size | extension size => exact spends_discard (spends_takeBytes _ _)
    | list count => exact spends_discard (spends_collect (fun _ => ih) count 0 [])
    | map count => exact spends_discard (spends_collect (fun _ => ih) (2 * count) 0 [])
    | _ => exact spends_result _ _

/-- A key is no level. -/
theorem spends_readKey (deep : Nat) : Spends readKey (fun _ => 0) deep := by
  have hsized (width deep : Nat) :
      Spends (do let size ← readNat width; takeBytes size) (fun _ => 0) deep :=
    (spends_readNat width deep).then fun size => spends_takeBytes size _
  refine (spends_readOpcode deep).then fun opcode => ?_
  dsimp only
  split
  · -- the size stands behind the opcode, or in it
    split
    · exact hsized 1 _
    · split
      · exact hsized 2 _
      · split
        · exact hsized 4 _
        · exact (spends_result _ _).then fun size => spends_takeBytes _ _
  · exact spends_throw (by nofun) _

/-- **A run that gives up for the depth** had bytes for it. -/
theorem Spends.of_run {reader : Reader α} {bytes : List UInt8} (h : Spends reader opened deep)
    (hr : reader.run bytes = .error .tooDeep) : deep ≤ openers bytes := by
  rcases error_of_bind hr with hrun | ⟨⟨x, cursor⟩, -, hrest⟩
  · exact h.of_tooDeep hrun
  · dsimp only at hrest
    split at hrest <;> cases hrest

end MessagePack

namespace Checkpoint

open MessagePack

/-! ## Tokens -/

theorem spends_need {α : Type} (field : Field) (x : Option α) (deep : Nat) :
    Spends (need field x) (fun _ => 0) deep := by
  cases x with
  | none => exact spends_throw (by nofun) _
  | some y => exact spends_result y _

section

variable [Nesting]

theorem spends_readOption (place : Place) :
    Spends (readOption place) (fun _ => 0) (nestingLimit - 2) := by
  refine (spends_readListHead _).then fun count => ?_
  have hrest : Spends (do
      let name ← readText (place ++ [.item 0])
      let value ← readValue (nestingLimit - 3) (place ++ [.item 1])
      pure (name, value)) (fun _ => 0) (nestingLimit - 3) :=
    (spends_readText _).then fun name =>
      (spends_readValue _ _).then fun value => spends_result (name, value) _
  have hrefused : Spends (throw (.pairLength count place) : Reader PUnit) (fun _ => 0)
      (nestingLimit - 3) := spends_throw (by nofun) _
  dsimp only
  split
  · exact hrefused.then fun _ => hrest
  · exact hrest

theorem spends_readOptions (place : Place) :
    Spends (readOptions place) (fun _ => 0) (nestingLimit - 1) :=
  (spends_readListHead _).then fun count => spends_collect (fun _ => spends_readOption _) count 0 []

/-- A field, inside the one level of the token. -/
theorem spends_readField (fields : Fields) (field : Field) :
    Spends (readField fields field) (fun _ => 0) (nestingLimit - 1) := by
  cases field with
  | options => exact (spends_readOptions _).then fun _ => spends_result _ _
  | bucket | name => exact (spends_readText _).then fun _ => spends_result _ _
  | generation => exact (spends_readInt? _).then fun _ => spends_result _ _
  | position | chunkSize | limit => exact (spends_readInt _).then fun _ => spends_result _ _
  | isOpen | ended => exact (spends_readBool _).then fun _ => spends_result _ _
  | lastEtag => exact (spends_readText? _).then fun _ => spends_result _ _

theorem spends_readFields (left : Nat) (fields : Fields) :
    Spends (readFields left fields) (fun _ => 0) (nestingLimit - 1) := by
  induction left generalizing fields with
  | zero => exact spends_result fields _
  | succ left ih =>
    refine (spends_readKey _).then fun key => ?_
    split
    · exact (spends_readField fields _).then fun read => ih read
    · exact (spends_skipValue _).then fun _ => ih fields

/-- **A token that is nested too deeply** has a byte for each level. -/
theorem spends_readContent : Spends readContent (fun _ => 0) nestingLimit := by
  refine (spends_readMapHead _).then fun count => (spends_readFields count {}).then fun fields => ?_
  refine (spends_need _ _ _).then fun bucket => (spends_need _ _ _).then fun name => ?_
  refine (spends_need _ _ _).then fun generation => (spends_need _ _ _).then fun options => ?_
  refine (spends_need _ _ _).then fun position => (spends_need _ _ _).then fun isOpen => ?_
  refine (spends_need _ _ _).then fun ended => (spends_need _ _ _).then fun chunkSize => ?_
  refine (spends_need _ _ _).then fun limit => (spends_need _ _ _).then fun lastEtag => ?_
  exact spends_result _ _

end

/-! ## Refusals -/

/-- **A result that is there or was refused as an argument.** -/
def Refuses {α : Type} (x : Except Fault α) : Prop :=
  ∀ fault, x = .error fault → ∃ cause, fault = .invalidArgument cause

variable {α β : Type}

theorem refuses_ok (x : α) : Refuses (.ok x) := nofun

theorem refuses_error (cause : ArgumentFault) :
    Refuses (.error (.invalidArgument cause) : Except Fault α) := by
  rintro _ ⟨⟩
  exact ⟨cause, rfl⟩

theorem Refuses.bind {x : Except Fault α} {f : α → Except Fault β} (hx : Refuses x)
    (hf : ∀ a, Refuses (f a)) : Refuses (x >>= f) := by
  intro fault h
  rcases error_of_bind h with h | ⟨a, -, h⟩
  · exact hx fault h
  · exact hf a fault h

theorem Refuses.mapM {f : α → Except Fault β} (hf : ∀ a, Refuses (f a)) (xs : List α) :
    Refuses (xs.mapM f) := by
  induction xs with
  | nil => exact refuses_ok []
  | cons x xs ih =>
    rw [List.mapM_cons]
    exact (hf x).bind fun y => ih.bind fun ys => refuses_ok (y :: ys)

theorem refuses_namedKind (name : String) : Refuses (namedKind name) := by
  unfold namedKind
  split
  · exact refuses_ok _
  · exact refuses_error _

theorem refuses_bound (what : Bound) (n : Int) : Refuses (Channel.bound what (.int n)) := by
  unfold Channel.bound
  dsimp only
  split
  · exact refuses_error _
  · exact refuses_ok _

theorem refuses_make (bucket name : String) (generation : Value) :
    Refuses ((ObjectId.make bucket name generation).mapError Fault.ofIdentity) := by
  unfold ObjectId.make
  split
  · exact refuses_error _
  · split
    · exact refuses_error _
    · exact refuses_ok _

/-- **What is wrong with bytes that are no token.** -/
theorem fault_of_ofToken [Nesting] {token : List UInt8} {fault : Fault}
    (h : ofToken token = .error fault) :
    (∃ cause, fault = .invalidArgument cause)
      ∨ fault = .tooDeep ∧ readContent.run token = .error .tooDeep := by
  rcases error_of_bind h with hread | ⟨content, -, hrest⟩
  · cases hrun : readContent.run token with
    | ok content =>
      rw [hrun] at hread
      cases hread
    | error f =>
      rw [hrun] at hread
      cases hread
      cases f with
      | tooDeep => exact .inr ⟨rfl, rfl⟩
      | _ => exact .inl ⟨_, rfl⟩
  · -- after the bytes were read, whatever is refused is an argument
    refine .inl (Refuses.bind ?_ (fun kinds => ?_) fault hrest)
    · exact Refuses.mapM (fun o => refuses_namedKind o.1) content.options
    refine (refuses_bound .position content.position).bind fun position => ?_
    refine (refuses_bound .limit content.limit).bind fun limit => ?_
    exact (refuses_make _ _ _).bind fun object => refuses_ok _

end Checkpoint

namespace MessagePack

/-! ## Bytes that are nested too deeply -/

/-- **A reader gives up for the depth** at bytes, whatever follows and wherever
they stand. -/
def GivesUp {α : Type} (reader : Reader α) (bytes : List UInt8) : Prop :=
  ∀ (offset : Nat) (rest : List UInt8), reader ⟨offset, bytes ++ rest⟩ = .error .tooDeep

variable {α β : Type} {reader : Reader α} {next : α → Reader β} {first second bytes : List UInt8}

/-- It gives up behind bytes that are read. -/
theorem Reads.givesUp {x : α} (hx : Reads reader first x) (hy : GivesUp (next x) second) :
    GivesUp (reader >>= next) (first ++ second) := by
  intro offset rest
  show (reader ⟨offset, (first ++ second) ++ rest⟩ >>= fun p => next p.1 p.2) = _
  rw [List.append_assoc, hx offset (second ++ rest)]
  exact hy _ rest

/-- What would come next is not read. -/
theorem GivesUp.bind (h : GivesUp reader bytes) : GivesUp (reader >>= next) bytes := by
  intro offset rest
  show (reader ⟨offset, bytes ++ rest⟩ >>= fun p => next p.1 p.2) = _
  rw [h offset rest]
  rfl

/-- **Lists in lists**, as many as the reader follows. -/
theorem givesUp_readValue {depth count : Nat} (h : depth ≤ count) (place : Place) :
    GivesUp (readValue depth place) (List.replicate count 0x91) := by
  induction depth generalizing count place with
  | zero => exact fun _ _ => rfl
  | succ depth ih =>
    obtain ⟨count, rfl⟩ := Nat.exists_eq_add_of_lt (Nat.lt_of_lt_of_le (Nat.succ_pos depth) h)
    have hone : (1 : Nat) < sizeLimit := by decide
    rw [Nat.zero_add, List.replicate_succ]
    unfold readValue
    refine (reads_listHead hone).givesUp ?_
    show GivesUp (Value.list <$> collect _ 1 0 []) _
    rw [map_eq_pure_bind]
    exact (ih (by omega) _).bind.bind

end MessagePack

namespace Checkpoint

open MessagePack

/-- The options of a token: one, which is so many lists in each other. -/
def deepOption (kind : OptionKind) (count : Nat) : List UInt8 :=
  writeText Field.options.key
    ++ (listHead 1 ++ (listHead 2 ++ (writeText kind.wireName ++ List.replicate count 0x91)))

/-- **A token with such an option** is not refused as an argument. -/
theorem ofToken_deepOption [Nesting] (kind : OptionKind) {count : Nat}
    (h : nestingLimit - 3 ≤ count) (rest : List UInt8) :
    ofToken (mapHead Field.all.length ++ deepOption kind count ++ rest) = .error .tooDeep := by
  have hone : (1 : Nat) < sizeLimit := by decide
  have htwo : (2 : Nat) < sizeLimit := by decide
  have hten : Field.all.length < sizeLimit := by decide
  have hoption (place : Place) : GivesUp (readOption place)
      (listHead 2 ++ (writeText kind.wireName ++ List.replicate count 0x91)) :=
    (reads_readListHead htwo).givesUp
      ((reads_readText (length_wireName kind)).givesUp (givesUp_readValue h _).bind)
  have hfields : GivesUp (readFields Field.all.length {}) (deepOption kind count) := by
    refine (reads_readKey (length_key .options)).givesUp ?_
    rw [ofKey?_key]
    exact GivesUp.bind ((reads_readListHead hone).givesUp (hoption _).bind).bind
  have hrun : readContent.run (mapHead Field.all.length ++ deepOption kind count ++ rest)
      = .error .tooDeep := by
    have hgives : GivesUp readContent (mapHead Field.all.length ++ deepOption kind count) :=
      (reads_readMapHead hten).givesUp hfields.bind
    unfold Reader.run StateT.run
    rw [hgives 0 rest]
    rfl
  unfold ofToken
  rw [hrun]
  rfl

/-- **A checkpoint of proper values**: its object has an integer generation or
none, its position and its limit are not negative, the size of its chunks is an
integer, and so on. That the object has a bucket and a name, and every option a
kind, is in the types. -/
structure Proper (p : Checkpoint) : Prop where
  bucket_ne : p.object.bucket ≠ ""
  name_ne : p.object.name ≠ ""
  generation : p.object.generation = .null ∨ ∃ n, p.object.generation = .int n
  position : ∃ n : Nat, p.position = .int n
  limit : ∃ n : Nat, p.limit = .int n
  chunkSize : ∃ n, p.chunkSize = .int n
  isOpen : ∃ b, p.isOpen = .bool b
  ended : ∃ b, p.ended = .bool b
  lastEtag : ∃ tag, p.lastEtag = etagValue tag

theorem proper_of_ofToken [Nesting] {token : List UInt8} {p : Checkpoint}
    (h : ofToken token = .ok p) : p.Proper := by
  obtain ⟨content, -, hp, -, hposition, hlimit⟩ := ofToken_eq_ok h
  have hgeneration := hp.generation
  refine {
    bucket_ne := p.object.bucket_ne
    name_ne := p.object.name_ne
    generation := ?_
    position := ⟨content.position.toNat, ?_⟩
    limit := ⟨content.limit.toNat, ?_⟩
    chunkSize := ⟨_, hp.chunkSize⟩
    isOpen := ⟨_, hp.isOpen⟩
    ended := ⟨_, hp.ended⟩
    lastEtag := ⟨_, hp.lastEtag⟩ }
  · cases hn : content.generation with
    | none =>
      rw [hn] at hgeneration
      exact .inl hgeneration
    | some n =>
      rw [hn] at hgeneration
      exact .inr ⟨n, hgeneration⟩
  · rw [Int.toNat_of_nonneg hposition]
    exact hp.position
  · rw [Int.toNat_of_nonneg hlimit]
    exact hp.limit

end Checkpoint

/-! ## The theorem -/

/-- **What is made of any bytes.** Bytes that are taken for a token give a
checkpoint of proper values. Other bytes are refused as an argument, or the
reader gives up for the depth; then at least `nestingLimit` of them open a list
or a map. It does give up at an option that is nested too deeply. -/
theorem malformed_tokens_refused [Nesting] (token : List UInt8) :
    (∀ p, Checkpoint.ofToken token = .ok p → p.Proper)
      ∧ (∀ fault, Checkpoint.ofToken token = .error fault →
        (∃ cause, fault = .invalidArgument cause)
          ∨ fault = .tooDeep ∧ Checkpoint.nestingLimit ≤ MessagePack.openers token)
      ∧ ∀ (kind : OptionKind) (count : Nat) (rest : List UInt8),
        token = MessagePack.mapHead Checkpoint.Field.all.length
            ++ Checkpoint.deepOption kind count ++ rest →
          Checkpoint.nestingLimit - 3 ≤ count → Checkpoint.ofToken token = .error .tooDeep := by
  refine ⟨fun p h => Checkpoint.proper_of_ofToken h, fun fault h => ?_, ?_⟩
  · rcases Checkpoint.fault_of_ofToken h with hcause | ⟨hdeep, hrun⟩
    · exact .inl hcause
    · exact .inr ⟨hdeep, Checkpoint.spends_readContent.of_run hrun⟩
  · rintro kind count rest rfl h
    exact Checkpoint.ofToken_deepOption kind h rest

/-- The other fields of a token, behind an option that is nil in its innermost
list. -/
def sampleRest : List UInt8 :=
  0xC0 :: (MessagePack.writeText "bucket" ++ MessagePack.writeText "b"
    ++ MessagePack.writeText "name" ++ MessagePack.writeText "n"
    ++ MessagePack.writeText "generation" ++ [0xC0]
    ++ MessagePack.writeText "position" ++ [0]
    ++ MessagePack.writeText "is_open" ++ [0xC3]
    ++ MessagePack.writeText "end_of_stream" ++ [0xC2]
    ++ MessagePack.writeText "chunk_size" ++ [4]
    ++ MessagePack.writeText "limit" ++ [10]
    ++ MessagePack.writeText "last_etag" ++ [0xC0])

/-- A token with an option whose value is so many lists in each other. -/
def sampleNested (count : Nat) : List UInt8 :=
  MessagePack.mapHead Checkpoint.Field.all.length
    ++ Checkpoint.deepOption .userProject count ++ sampleRest

/-- **Not every token is taken or refused as an argument.** One list is taken as
the value of an option; at a hundred thousand of them, in each other, the reader
gives up. -/
theorem not_every_token_refused :
    (∃ p, Checkpoint.ofToken (sampleNested 1) = .ok p
        ∧ p.options = [⟨.userProject, .list [.null]⟩])
      ∧ Checkpoint.ofToken (sampleNested 100000) = .error .tooDeep
      ∧ ¬ ∃ cause, Fault.tooDeep = .invalidArgument cause :=
  ⟨⟨_, rfl, rfl⟩, Checkpoint.ofToken_deepOption .userProject (by decide) sampleRest, nofun⟩

end RangeReader

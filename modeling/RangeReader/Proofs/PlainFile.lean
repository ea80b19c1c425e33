import RangeReader.Proofs.ExactRead
import RangeReader.ReadFile

/-!
# A file over a channel is a file

A file over a channel has three layers: loops that collect what they read, a step
that gives no bytes for the end, and the channel with its chunk. What a program sees
of them is a plain file (`PlainFile.Step`): content that stands still, and one place
in it.

The limit of the channel is where the content of the file ends. As long as it stays
where it is, an end that was said is an end still. That is why nothing needs to be
known here of what the file said before, unlike for a channel: a channel that has said
that it is at the end is there (`StandsAt`), and moving it makes it forget. Only what
was said before there was a file must be true still: the limit may have been raised
after it was said.
-/

namespace RangeReader

/-! ## Using a file -/

/-- **What can be asked of a file.** -/
inductive FileOperation where
  /-- To read up to `size` bytes at once, or everything where `size` is negative. -/
  | read (size : Int)
  /-- To read everything up to the end. -/
  | readAll
  /-- To read a line. -/
  | readLine
  /-- To say where it is. -/
  | tell
  /-- To move by an offset, from where `whence` says. -/
  | seek (offset : Value) (whence : Int)

namespace ReadFile

variable {σ : Type}

/-- **Performs an operation on a file.** -/
def perform (source : Source σ) (op : FileOperation) (f : ReadFile) (s : σ) :
    Outcome × ReadFile × σ :=
  match op with
  | .read size =>
    let (result, f, s) := f.read source size s
    (.ofResult .data result, f, s)
  | .readAll =>
    let (result, f, s) := f.readAll source s
    (.ofResult .data result, f, s)
  | .readLine =>
    let (result, f, s) := f.readLine source (-1) s
    (.ofResult .data result, f, s)
  | .tell => (.ofResult .offset f.tell, f, s)
  | .seek offset whence =>
    let (result, f, s) := f.seek source offset whence s
    (.ofResult .offset result, f, s)

/-- **Performs operations one after the other**, and lists what comes of them. -/
def performAll (source : Source σ) : List FileOperation → ReadFile → σ →
    List Outcome × ReadFile × σ
  | [], f, s => ([], f, s)
  | op :: ops, f, s =>
    let (outcome, f, s) := f.perform source op s
    let (outcomes, f, s) := performAll source ops f s
    (outcome :: outcomes, f, s)

end ReadFile

/-! ## The plain file -/

namespace PlainFile

/-- **The first line** of some bytes, with the newline that ends it; all of them where
there is none. -/
def firstLine : List UInt8 → List UInt8
  | [] => []
  | b :: rest => if b = ReadFile.newline then [b] else b :: firstLine rest

/-- **Where a move goes**, from a place. It may be before the start, and it may be
nowhere: to something that is no integer, or by a reckoning that is not known. -/
def destination? (place : Nat) (offset : Value) (whence : Int) : Option Int :=
  if whence = 0 then match offset with
    | .int n => some n
    | _ => none
  else if whence = 1 then offset.asInt?.map fun n => place + n
  else none

/-- **What a plain file answers** at a place, and where it is then. -/
inductive Step (content : List UInt8) : FileOperation → Nat → Outcome → Nat → Prop where
  /-- Some of the bytes from there on, and none only at the end or beyond, or if none
  are asked for. -/
  | bytes {place size count : Nat} (count_le : count ≤ size)
      (count_le_left : count ≤ content.length - place)
      (none_left : count = 0 → size = 0 ∨ content.length ≤ place) :
    Step content (.read size) place (.data ((content.drop place).take count)) (place + count)
  /-- All bytes from there on. -/
  | rest {place : Nat} {size : Int} (negative : size < 0) :
    Step content (.read size) place (.data (content.drop place))
      (place + (content.drop place).length)
  /-- All bytes from there on. -/
  | all {place : Nat} :
    Step content .readAll place (.data (content.drop place)) (place + (content.drop place).length)
  /-- The bytes from there to the end of the line. -/
  | line {place : Nat} :
    Step content .readLine place (.data (firstLine (content.drop place)))
      (place + (firstLine (content.drop place)).length)
  /-- The place. -/
  | tell {place : Nat} : Step content .tell place (.offset place) place
  /-- The new place, which may be beyond the end. -/
  | moved {place target : Nat} {offset : Value} {whence : Int}
      (goes : destination? place offset whence = some (target : Int)) :
    Step content (.seek offset whence) place (.offset target) target
  /-- There is no place before the start. -/
  | beforeStart {place : Nat} {target : Int} {offset : Value} {whence : Int}
      (goes : destination? place offset whence = some target) (negative : target < 0) :
    Step content (.seek offset whence) place
      (.failed (.invalidArgument (.negative .position target))) place
  /-- A place is an integer. -/
  | notPlace {place : Nat} {offset : Value} (goes : destination? place offset 0 = none) :
    Step content (.seek offset 0) place
      (.failed (.invalidArgument (.notInteger .position offset))) place
  /-- Only a number is a distance. -/
  | notDistance {place : Nat} {offset : Value} (goes : destination? place offset 1 = none)
      (other : ∀ x, offset ≠ .float x) :
    Step content (.seek offset 1) place (.failed .mistyped) place
  /-- At a distance that is a double there is a double, which is no place. -/
  | notInteger {place : Nat} {x : Binary64} {start : Int}
      (finite : (Binary64.ofInt place).truncated? = some start) :
    Step content (.seek (.float x) 1) place
      (.failed (.invalidArgument (.notInteger .position (.float ((Binary64.ofInt place).add x)))))
      place
  /-- There is none if the place is beyond all doubles. -/
  | tooFar {place : Nat} {x : Binary64}
      (infinite : (Binary64.ofInt place).truncated? = none) :
    Step content (.seek (.float x) 1) place (.failed .unrepresentable) place
  /-- The end is not known. -/
  | fromEnd {place : Nat} {offset : Value} :
    Step content (.seek offset 2) place
      (.failed (.unsupported "Seeking relative to the end of an object")) place
  /-- There is nothing else to reckon from. -/
  | unknown {place : Nat} {offset : Value} {whence : Int}
      (others : whence ≠ 0 ∧ whence ≠ 1 ∧ whence ≠ 2) :
    Step content (.seek offset whence) place (.failed (.unknownWhence whence)) place

/-- **What a plain file answers to operations one after the other.** -/
inductive Runs (content : List UInt8) :
    List FileOperation → Nat → List Outcome → Nat → Prop where
  /-- Nothing is asked. -/
  | nil {place : Nat} : Runs content [] place [] place
  /-- One operation, and then the others. -/
  | cons {op : FileOperation} {ops : List FileOperation} {outcome : Outcome}
      {outcomes : List Outcome} {place next last : Nat}
      (first : Step content op place outcome next) (others : Runs content ops next outcomes last) :
    Runs content (op :: ops) place (outcome :: outcomes) last

end PlainFile

/-! ## Reading below the limit -/

namespace PlainReader

variable {h : Held} {r : PlainReader} {count : Nat}

theorem left_eq (h : Held) (r : PlainReader) :
    r.left h.data = (h.between r.position r.limit).length :=
  (h.length_between r.position r.limit).symm

/-- The next bytes are bytes of what is below the limit. -/
theorem next_eq (hle : count ≤ r.left h.data) :
    r.next h.data count = (h.between r.position r.limit).take count := by
  unfold left at hle
  rw [next, Held.between, List.drop_take, List.take_take, Nat.min_eq_left (by omega)]

/-- **Reading everything is reading what is below the limit**, also after the end was
said, if the reader is there. -/
theorem read_rest (hsaid : r.ended = true → min r.limit h.data.length ≤ r.position) {size : Int}
    (hneg : size < 0) :
    r.read h.data size
      = (h.between r.position r.limit,
        ⟨r.position + (h.between r.position r.limit).length, r.limit, true⟩) := by
  unfold read
  by_cases he : r.ended = true
  · have hleft : r.left h.data = 0 := by
      have := hsaid he
      unfold left
      omega
    rw [if_pos (.inr he), ← left_eq, hleft, ← he]
    rw [left_eq, List.length_eq_zero_iff] at hleft
    rw [hleft]
    rfl
  · rw [if_neg (by simp [he]; omega), if_neg (by omega), next_eq (Nat.le_refl _), ← left_eq,
      List.take_of_length_le (left_eq h r).ge]
    rfl

end PlainReader

namespace Channel

variable {σ : Type} {source : Source σ} {capacity limit place : Nat} {c after : Channel}
variable {s s' : σ} {h : Held} {r : PlainReader}

/-- **A channel at a place** in the content below its limit: it follows a plain reader
there, which has said that it is at the end only if it is. -/
def StandsAt (h : Held) (limit place : Nat) (c : Channel) : Prop :=
  ∃ r, Follows h r c ∧ r.position = place ∧ r.limit = limit
    ∧ (r.ended = true → min limit h.data.length ≤ place)

namespace StandsAt

/-- An open channel that has not said the end, or is there. -/
theorem of_followsSaying {said : Bool} (hf : FollowsSaying h said c) (ho : c.isOpen = true)
    (hsaid : said = true → min c.limit h.data.length ≤ c.pointer) :
    StandsAt h c.limit c.pointer c := by
  obtain ⟨r, hf, hr⟩ := hf ho
  exact ⟨r, hf, hf.pointer_eq.symm, hf.limit_eq.symm, fun hended => hsaid (hr ▸ hended)⟩

theorem tell_eq (hp : StandsAt h limit place c) : c.tell = .ok place := by
  obtain ⟨r, hf, rfl, -, -⟩ := hp
  exact hf.tell_eq

/-- **One read gives some of the bytes that are left**, or says that there are none. -/
theorem readInto (hs : source.Serves h) (hp : StandsAt h limit place c) {d : Delivery}
    (step : ReadStep source capacity c s d after s') :
    (∃ count, d = .bytes ((h.between place limit).take count) ∧ count ≤ capacity
        ∧ count ≤ (h.between place limit).length ∧ (count = 0 → capacity = 0)
        ∧ StandsAt h limit (place + count) after)
      ∨ d = .ended ∧ h.between place limit = [] ∧ StandsAt h limit place after := by
  obtain ⟨r, hf, rfl, rfl, hsaid⟩ := hp
  obtain ⟨r', hstep, hf'⟩ := hf.readInto hs step
  cases d with
  | bytes bytes =>
    left
    cases hstep with
    | @bytes _ _ count more count_pos count_le =>
      refine ⟨count, ?_, by omega, ?_, by omega, _, hf', rfl, rfl, fun he => ?_⟩
      · rw [PlainReader.next_eq (by omega)]
      · rw [← PlainReader.left_eq]
        omega
      · exact absurd (.inl he) more
    | noBytes => exact ⟨0, rfl, Nat.le_refl 0, Nat.zero_le _, fun _ => rfl, r, hf', rfl, rfl, hsaid⟩
  | ended =>
    right
    obtain ⟨hend, rfl⟩ := hstep.atEnd
    have hthere : min r.limit h.data.length ≤ r.position := hend.elim hsaid id
    exact ⟨rfl, Held.between_eq_nil hthere, _, hf', rfl, rfl, fun _ => hthere⟩
  | failed fault => exact absurd hstep PlainReader.Step.not_failed

/-- **Draining gives all that is left.** -/
theorem drain (hs : source.Serves h) (hp : StandsAt h limit place c) (hc : 0 < capacity) (s : σ) :
    (c.drain source capacity hc [] s).1 = .ok (h.between place limit)
      ∧ StandsAt h limit (place + (h.between place limit).length)
        (c.drain source capacity hc [] s).2.1 := by
  obtain ⟨r, hf, rfl, rfl, hsaid⟩ := hp
  obtain ⟨hresult, hf'⟩ := hf.drain hs (show (-1 : Int) < 0 by decide) capacity hc [] c s
  rw [PlainReader.read_rest hsaid (by decide)] at hresult hf'
  refine ⟨hresult, _, hf', rfl, rfl, fun _ => ?_⟩
  show _ ≤ r.position + _
  rw [Held.length_between]
  omega

/-- **A read into room for one byte** gives the next one. -/
theorem readByte (hs : source.Serves h) (hp : StandsAt h limit place c) {data : List UInt8}
    (step : ReadStep source 1 c s (.bytes data) after s') :
    ∃ b rest, h.between place limit = b :: rest ∧ data = [b]
      ∧ h.between (place + 1) limit = rest ∧ StandsAt h limit (place + 1) after := by
  rcases hp.readInto hs step with ⟨count, hd, hroom, hleft, hpos, hp'⟩ | ⟨hd, -⟩
  · have hone : count = 1 := by omega
    subst hone
    obtain ⟨b, rest, hcons⟩ := List.exists_cons_of_length_pos hleft
    rw [hcons] at hd
    cases hd
    refine ⟨b, rest, hcons, rfl, ?_, hp'⟩
    rw [← Held.tail_between, hcons, List.tail_cons]
  · cases hd

/-- **A line is read up to its end**, byte by byte. -/
theorem lineFrom (hs : source.Serves h) (hp : StandsAt h limit place c)
    (before : List UInt8) (s : σ) :
    (ReadFile.lineFrom source none before c s).1
        = .ok (before.reverse ++ PlainFile.firstLine (h.between place limit))
      ∧ StandsAt h limit
        (place + (PlainFile.firstLine (h.between place limit)).length)
        (ReadFile.lineFrom source none before c s).2.1 := by
  -- the bound is an argument that the recursion changes, so it must be a variable
  generalize hbound : (none : Option Nat) = bound
  fun_induction ReadFile.lineFrom source bound before c s generalizing place with
  | case1 before c s => cases hbound
  | case2 bound before c s hb after s' hr =>
    -- the next byte ends the line
    obtain ⟨b, rest, hcons, hb, -, hp'⟩ := hp.readByte hs (.of_eq hr)
    cases hb
    rw [hcons, PlainFile.firstLine, if_pos rfl]
    exact ⟨by simp, hp'⟩
  | case3 bound before c s hb data after s' hr _ hn ih =>
    -- it does not, and the line is this byte and what the recursion reads
    obtain ⟨b, rest, hcons, rfl, hrest, hp'⟩ := hp.readByte hs (.of_eq hr)
    obtain ⟨hresult, hlast⟩ := ih hp' (by rw [← hbound]; rfl)
    rw [hrest] at hresult hlast
    rw [hcons, PlainFile.firstLine, if_neg (by simpa using hn)]
    refine ⟨?_, ?_⟩
    · rw [hresult]
      simp
    · rw [List.length_cons, Nat.add_comm _ 1, ← Nat.add_assoc]
      exact hlast
  | case4 bound before c s hb after s' hr =>
    -- there is none, and the line is what was read before
    rcases hp.readInto hs (.of_eq hr) with ⟨count, hd, -⟩ | ⟨-, hnil, hp'⟩
    · cases hd
    · rw [hnil]
      exact ⟨by simp [PlainFile.firstLine], hp'⟩
  | case5 bound before c s hb fault after s' hr =>
    rcases hp.readInto hs (.of_eq hr) with ⟨count, hd, -⟩ | ⟨hd, -⟩ <;> cases hd

section Moves

variable {f : ReadFile} {offset : Value} {whence : Int}

/-- A move from the place of the file. -/
theorem target_of_tell (htell : f.tell = .ok place) (offset : Value) :
    f.target offset 1 = ReadFile.placeAt offset place := by
  unfold ReadFile.target
  rw [if_neg (by decide), if_pos rfl, htell]
  rfl

/-- A move to something that is no offset changes nothing. -/
theorem seek_refused (hp : StandsAt h limit place f.channel) {target : Value} {fault : Fault}
    (htarget : f.target offset whence = .ok target)
    (hbound : bound .position target = .error fault) (s : σ) :
    f.seek source offset whence s = (.error fault, f, s) := by
  obtain ⟨r, hf, -⟩ := hp
  unfold ReadFile.seek
  rw [htarget]
  dsimp only
  rw [seek_open source hf.isOpen, hbound]

/-- **A move to an integer** goes there, or nowhere if it is negative. -/
theorem seek_int (hp : StandsAt h limit place f.channel) {n : Int}
    (htarget : f.target offset whence = .ok (.int n))
    (hgoes : PlainFile.destination? place offset whence = some n) (s : σ) :
    (∃ target : Nat, PlainFile.destination? place offset whence = some (target : Int)
        ∧ (f.seek source offset whence s).1 = .ok target
        ∧ StandsAt h limit target (f.seek source offset whence s).2.1.channel)
      ∨ ∃ fault, f.seek source offset whence s = (.error fault, f, s)
        ∧ PlainFile.Step (h.data.take limit) (.seek offset whence) place (.failed fault) place := by
  by_cases hneg : n < 0
  · have hbound : bound .position (.int n) = .error (.invalidArgument (.negative .position n)) :=
      if_pos hneg
    exact .inr ⟨_, hp.seek_refused htarget hbound s, .beforeStart hgoes hneg⟩
  · obtain ⟨target, rfl⟩ := Int.eq_ofNat_of_zero_le (Int.not_lt.mp hneg)
    obtain ⟨r, hf, -, rfl, -⟩ := hp
    have hmoved : f.seek source offset whence s
        = (.ok target, { f with channel := f.channel.movedTo target },
          source.note (.seeking f.channel.object.text target) s) := by
      unfold ReadFile.seek
      rw [htarget]
      dsimp only
      rw [seek_natCast source hf.isOpen]
      rfl
    rw [hmoved]
    exact .inl ⟨target, hgoes, rfl, _, hf.movedTo target, rfl, rfl, nofun⟩

/-- **A move goes where it is to go, or nowhere**, and then it changes nothing. -/
theorem seek (hp : StandsAt h limit place f.channel) (source : Source σ) (offset : Value)
    (whence : Int) (s : σ) :
    (∃ target : Nat, PlainFile.destination? place offset whence = some (target : Int)
        ∧ (f.seek source offset whence s).1 = .ok target
        ∧ StandsAt h limit target (f.seek source offset whence s).2.1.channel)
      ∨ ∃ fault, f.seek source offset whence s = (.error fault, f, s)
        ∧ PlainFile.Step (h.data.take limit) (.seek offset whence) place (.failed fault) place := by
  have herror {fault : Fault} (htarget : f.target offset whence = .error fault) :
      f.seek source offset whence s = (.error fault, f, s) := by
    unfold ReadFile.seek
    rw [htarget]
  by_cases hset : whence = 0
  -- only the channel looks at a place
  · subst hset
    cases offset with
    | int n => exact hp.seek_int rfl rfl s
    | _ => exact .inr ⟨_, hp.seek_refused rfl rfl s, .notPlace rfl⟩
  · by_cases hcur : whence = 1
    -- the file adds a distance to the place before the channel looks at it
    · subst hcur
      have htarget := target_of_tell hp.tell_eq offset
      cases offset with
      | int n => exact hp.seek_int htarget rfl s
      | bool b => exact hp.seek_int htarget rfl s
      | float x =>
        unfold ReadFile.placeAt at htarget
        dsimp only at htarget
        cases hstart : (Binary64.ofInt place).truncated? with
        | some start =>
          rw [hstart] at htarget
          exact .inr ⟨_, hp.seek_refused htarget rfl s, .notInteger hstart⟩
        | none =>
          rw [hstart] at htarget
          exact .inr ⟨_, herror htarget, .tooFar hstart⟩
      | _ => exact .inr ⟨_, herror htarget, .notDistance rfl nofun⟩
    · by_cases hend : whence = 2
      · subst hend
        exact .inr ⟨_, herror rfl, .fromEnd⟩
      · refine .inr ⟨_, herror ?_, .unknown ⟨hset, hcur, hend⟩⟩
        simp [ReadFile.target, hset, hcur, hend]

end Moves

end StandsAt

end Channel

namespace ReadFile

variable {σ : Type} {source : Source σ} {limit place : Nat} {h : Held} {f : ReadFile}

/-- One read of the channel is a read of the plain file. The end is no bytes. -/
theorem readInto_step (hs : source.Serves h) (hp : f.channel.StandsAt h limit place) (size : Nat)
    (s : σ) :
    ∃ next, PlainFile.Step (h.data.take limit) (.read size) place
        (.ofResult .data (f.readInto source size s).1) next
      ∧ (f.readInto source size s).2.1.channel.StandsAt h limit next := by
  show ∃ next, PlainFile.Step _ _ place
      (.ofResult .data (dataOf (f.channel.readInto source size s).1)) next
    ∧ (f.channel.readInto source size s).2.1.StandsAt h limit next
  rcases hp.readInto hs (Channel.readInto_step source size f.channel s) with
    ⟨count, hd, hroom, hleft, hpos, hp'⟩ | ⟨hd, hnil, hp'⟩
  · rw [hd]
    rw [Held.between, List.length_drop] at hleft
    exact ⟨_, .bytes hroom hleft fun hzero => .inl (hpos hzero), hp'⟩
  · rw [hd]
    have hstep : PlainFile.Step (h.data.take limit) (.read size) place
        (.data ((h.between place limit).take 0)) (place + 0) :=
      .bytes (Nat.zero_le _) (Nat.zero_le _) fun _ => .inr (List.drop_eq_nil_iff.mp hnil)
    exact ⟨place, hstep, hp'⟩

/-- Reading everything is reading all that is left. -/
theorem readAll_eq (hs : source.Serves h) (hp : f.channel.StandsAt h limit place) (s : σ) :
    (f.readAll source s).1 = .ok (h.between place limit)
      ∧ (f.readAll source s).2.1.channel.StandsAt h limit
        (place + (h.between place limit).length) :=
  hp.drain hs (by decide) s

/-- **Every operation on a file at a place is a step of the plain file.** -/
theorem perform_step (hs : source.Serves h) (hp : f.channel.StandsAt h limit place)
    (op : FileOperation) (s : σ) :
    ∃ next, PlainFile.Step (h.data.take limit) op place (f.perform source op s).1 next
      ∧ (f.perform source op s).2.1.channel.StandsAt h limit next := by
  obtain ⟨hall, hrest⟩ := readAll_eq hs hp s
  cases op with
  | read size =>
    show ∃ next, PlainFile.Step _ _ place (.ofResult .data (f.read source size s).1) next
      ∧ (f.read source size s).2.1.channel.StandsAt h limit next
    unfold ReadFile.read
    by_cases hneg : size < 0
    · rw [if_pos hneg, hall]
      exact ⟨_, .rest hneg, hrest⟩
    · rw [if_neg hneg]
      obtain ⟨n, rfl⟩ := Int.eq_ofNat_of_zero_le (Int.not_lt.mp hneg)
      exact readInto_step hs hp n s
  | readAll =>
    show ∃ next, PlainFile.Step _ _ place (.ofResult .data (f.readAll source s).1) next ∧ _
    rw [hall]
    exact ⟨_, .all, hrest⟩
  | readLine =>
    obtain ⟨hline, hnext⟩ := hp.lineFrom hs [] s
    show ∃ next, PlainFile.Step _ _ place
      (.ofResult .data (lineFrom source none [] f.channel s).1) next ∧ _
    rw [hline]
    exact ⟨_, .line, hnext⟩
  | tell =>
    show ∃ next, PlainFile.Step _ _ place (.ofResult .offset f.channel.tell) next ∧ _
    rw [hp.tell_eq]
    exact ⟨place, .tell, hp⟩
  | seek offset whence =>
    show ∃ next, PlainFile.Step _ _ place (.ofResult .offset (f.seek source offset whence s).1) next
      ∧ (f.seek source offset whence s).2.1.channel.StandsAt h limit next
    rcases hp.seek source offset whence s with ⟨target, hgoes, hresult, hp'⟩ | ⟨fault, hseek, hstep⟩
    · rw [hresult]
      exact ⟨target, .moved hgoes, hp'⟩
    · rw [hseek]
      exact ⟨place, hstep, hp⟩

/-- **A run on a file is a run of the plain file.** -/
theorem performAll_runs (hs : source.Serves h) (hp : f.channel.StandsAt h limit place)
    (ops : List FileOperation) (s : σ) :
    ∃ last, PlainFile.Runs (h.data.take limit) ops place (performAll source ops f s).1 last
      ∧ (performAll source ops f s).2.1.channel.StandsAt h limit last := by
  induction ops generalizing f place s with
  | nil => exact ⟨place, .nil, hp⟩
  | cons op ops ih =>
    obtain ⟨next, hstep, hp'⟩ := perform_step hs hp op s
    obtain ⟨last, hruns, hlast⟩ := ih hp' (f.perform source op s).2.2
    exact ⟨last, .cons hstep hruns, hlast⟩

end ReadFile

/-! ## The theorem -/

/-- **A file over a channel is a file.** Take a channel just opened over a source that
serves an object, after any operations, failing ones among them, with any limit and any
size of chunks, and handed over any number of times to sources that serve the object
too. If it is open, and at the end if one of its single reads since the last move has
said so, take a file over it, over any such source, and use it by any operations.

* What they give is what a plain file gives over the content below the limit, from where
  the channel was, and the file is always where that one is.
* A move that fails leaves the file and its source as they were, so it makes no
  difference to anything that comes after it. -/
theorem file_is_plain [Nesting] {σ : Type} {source : Source σ} {h : Held} (hs : source.Serves h)
    {object : ObjectId} {options : List ReadOption} {fresh : Channel}
    (hc : Channel.opened object options = .ok fresh) (moves : List (Move σ))
    (hmoves : ∀ next, .handOver next ∈ moves → next.Serves h) (start : σ)
    {results : List Outcome} {c : Channel} {s : σ}
    (hrun : Channel.performMoves source moves fresh start = .ok (results, c, s))
    (ho : c.isOpen = true)
    (hsaid : Channel.endSaid source moves false fresh start = true →
      min c.limit h.data.length ≤ c.pointer)
    {reader : Source σ} (hreader : reader.Serves h) (ops : List FileOperation)
    {outcomes : List Outcome} {f : ReadFile} {t : σ}
    (huse : ReadFile.performAll reader ops (.ofChannel c) s = (outcomes, f, t)) :
    ∃ place, PlainFile.Runs (h.data.take c.limit) ops c.pointer outcomes place
      ∧ f.tell = .ok place
      ∧ ∀ offset whence fault,
        (f.perform reader (.seek offset whence) t).1 = .failed fault →
        (f.perform reader (.seek offset whence) t).2 = (f, t) := by
  have hfresh : Channel.FollowsSaying h false fresh := fun _ =>
    ⟨.start, Channel.follows_opened hc, rfl⟩
  obtain ⟨place, hruns, hlast⟩ := ReadFile.performAll_runs (f := .ofChannel c) hreader
    (.of_followsSaying (hfresh.performMoves hs hmoves hrun) ho hsaid) ops s
  rw [huse] at hruns hlast
  refine ⟨place, hruns, hlast.tell_eq, fun offset whence fault hfailed => ?_⟩
  rcases hlast.seek reader offset whence t with ⟨target, -, hresult, -⟩ | ⟨fault', hseek, -⟩
  · change Outcome.ofResult .offset (f.seek reader offset whence t).1 = _ at hfailed
    rw [hresult] at hfailed
    cases hfailed
  · show (f.seek reader offset whence t).2 = (f, t)
    rw [hseek]

/-- Two lines and a rest. -/
def sampleLines : Held := ⟨[65, 66, 10, 67, 10, 68, 69, 70], some "v1"⟩

/-- Chunks of four bytes, and a limit within the rest. -/
def sampleFileSetup : List (Move Unit) :=
  [.operate (.setChunkSize 4), .operate (.setLimit (.int 7))]

/-- A use that moves past the end, fails to move, and reads on in every way. -/
def sampleFileUse : List FileOperation :=
  [.read 3, .seek (.int 20) 0, .read 3, .seek (.int (-1)) 0, .seek (.int 0) 2, .tell,
    .seek (.int (-17)) 1, .read 1, .readLine, .readAll]

theorem file_is_plain_sample :
    ∃ fresh results c outcomes f, Channel.opened sampleId [] = .ok fresh
      ∧ Channel.performMoves (sampleLines.source : Source Unit) sampleFileSetup fresh ()
        = .ok (results, c, ())
      ∧ c.isOpen = true
      ∧ Channel.endSaid (sampleLines.source : Source Unit) sampleFileSetup false fresh () = false
      ∧ ReadFile.performAll (sampleLines.source : Source Unit) sampleFileUse (.ofChannel c) ()
        = (outcomes, f, ())
      ∧ outcomes.take 8 = [.data [65, 66, 10], .offset 20, .data [],
          .failed (.invalidArgument (.negative .position (-1))),
          .failed (.unsupported "Seeking relative to the end of an object"), .offset 20, .offset 3,
          .data [67]]
      ∧ ∃ place, PlainFile.Runs [65, 66, 10, 67, 10, 68, 69] sampleFileUse 0 outcomes place
        ∧ f.tell = .ok place := by
  obtain ⟨fresh, results, c, hopened, hrun, hopen, hunsaid, hpointer, hlimit, houtcomes⟩ :
      ∃ fresh results c, Channel.opened sampleId [] = .ok fresh
        ∧ Channel.performMoves (sampleLines.source : Source Unit) sampleFileSetup fresh ()
          = .ok (results, c, ())
        ∧ c.isOpen = true
        ∧ Channel.endSaid (sampleLines.source : Source Unit) sampleFileSetup false fresh () = false
        ∧ c.pointer = 0 ∧ c.limit = 7
        ∧ (ReadFile.performAll (sampleLines.source : Source Unit) sampleFileUse
            (.ofChannel c) ()).1.take 8
          = [.data [65, 66, 10], .offset 20, .data [],
            .failed (.invalidArgument (.negative .position (-1))),
            .failed (.unsupported "Seeking relative to the end of an object"), .offset 20,
            .offset 3, .data [67]] :=
    ⟨_, _, _, rfl, rfl, rfl, rfl, rfl, rfl, rfl⟩
  rcases huse : ReadFile.performAll (sampleLines.source : Source Unit) sampleFileUse
    (.ofChannel c) () with ⟨outcomes, f, u⟩
  obtain ⟨place, hruns, htell, -⟩ := file_is_plain sampleLines.serves hopened sampleFileSetup
    (by simp [sampleFileSetup]) () hrun hopen (by simp [hunsaid]) sampleLines.serves
    sampleFileUse huse
  rw [huse] at houtcomes
  rw [hpointer, hlimit] at hruns
  exact ⟨fresh, results, c, outcomes, f, hopened, hrun, hopen, hunsaid, huse, houtcomes, place,
    hruns, htell⟩

end RangeReader

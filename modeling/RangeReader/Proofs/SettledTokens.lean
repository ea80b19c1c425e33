import RangeReader.Proofs.ReadInRange
import RangeReader.Proofs.TokenFaults

/-!
# One renewal settles a token

A reader of tokens takes many forms of one checkpoint, a writer has one. So a
token that anyone may have written is brought into that form by taking up its
read and capturing the channel at once, and doing so again changes nothing.

There are three things to see. Restoring does not fail: all that it looks at was
looked at when the token was read (`Proper.exists_restored`). The one thing that
it changes is a size of chunks that is not positive, and the default that takes
its place is kept from then on (`capture_of_restore`,
`restore_capture_of_restore`). And there is a token again, though the writer
refuses what it has no room for, as what was read came from a token
(`fits_of_ofToken`); nothing is asked of the token but that it was read.
-/

namespace RangeReader

namespace Channel

/-! ## Channels that were made -/

/-- The size of chunks that an integer asks for, as an integer. -/
theorem chunkSizeOf_eq (n : Int) :
    (chunkSizeOf n : Int) = if 0 < n then n else defaultChunkSize := by
  unfold chunkSizeOf
  split <;> split <;> omega

/-- A channel is opened for any object with an integer generation or none. -/
theorem exists_opened {object : ObjectId}
    (h : object.generation = .null ∨ ∃ n, object.generation = .int n) (options : List ReadOption) :
    ∃ fresh, opened object options = .ok fresh := by
  have hrecord : ∃ descriptor, ObjectRecord.ofObjectId object = .ok descriptor := by
    unfold ObjectRecord.ofObjectId
    rcases h with hnull | ⟨n, hn⟩
    · rw [hnull]
      exact ⟨_, rfl⟩
    · rw [hn]
      exact ⟨_, rfl⟩
  obtain ⟨descriptor, hdescriptor⟩ := hrecord
  unfold opened
  rw [hdescriptor]
  exact ⟨_, rfl⟩

/-- A channel that comes from somewhere has no chunk and has noticed nothing, so
it takes up its own read. -/
theorem Made.resumed_eq {c : Channel} (h : c.Made) : c.resumed = c := by
  obtain ⟨hunread, hserved, hmodification⟩ := h.unread_eq
  unfold resumed dropChunk pointer
  rw [hserved, hunread, Nat.add_zero, List.isEmpty_nil, Bool.and_true]
  cases c
  cases hunread
  cases hserved
  cases hmodification
  rfl

end Channel

namespace Checkpoint

open MessagePack

variable {token : List UInt8} {p : Checkpoint} {c : Channel}

/-! ## What was read fits -/

/-- **A checkpoint that is read from a token fits into one.** -/
theorem fits_of_ofToken [Nesting] (h : ofToken token = .ok p) : ∃ content, p.Fits content := by
  obtain ⟨content, hcontent, hp, hoptions, -⟩ := ofToken_eq_ok h
  have hroom : content.HasRoom := gives_readContent.of_run hcontent
  obtain ⟨hlength, hportable⟩ := hroom.options
  rw [← hoptions] at hlength hportable
  refine ⟨content, ?_⟩
  exact {
    bucket := Value.text.inj hp.bucket
    bucket_fits := hroom.bucket
    name := Value.text.inj hp.name
    name_fits := hroom.name
    generation := hp.generation
    generation_fits := hroom.generation
    options := hoptions
    options_fit := by
      refine ⟨by rwa [namedOptions, List.length_map] at hlength, fun o ho => ?_⟩
      exact hportable _ (List.mem_map_of_mem ho)
    position := hp.position
    position_fits := hroom.position
    isOpen := hp.isOpen
    ended := hp.ended
    chunkSize := hp.chunkSize
    chunkSize_fits := hroom.chunkSize
    limit := hp.limit
    limit_fits := hroom.limit
    lastEtag := hp.lastEtag
    lastEtag_fits := hroom.lastEtag }

/-! ## What was read is restored -/

/-- **A checkpoint of proper values is restored.** -/
theorem Proper.exists_restored (h : p.Proper) : ∃ c, p.restore = .ok c := by
  obtain ⟨position, hposition⟩ := h.position
  obtain ⟨limit, hlimit⟩ := h.limit
  obtain ⟨chunkSize, hchunkSize⟩ := h.chunkSize
  obtain ⟨tag, htag⟩ := h.lastEtag
  obtain ⟨fresh, hfresh⟩ := Channel.exists_opened h.generation p.options
  unfold restore
  rw [hposition, Channel.bound_natCast, ok_bind, hlimit, Channel.bound_natCast, ok_bind, hfresh,
    ok_bind, hchunkSize, htag]
  cases tag with
  | none => exact ⟨_, rfl⟩
  | some t => exact ⟨_, rfl⟩

/-- **What is captured of a channel that was restored**: what it was restored
from, with a size of chunks that is positive. -/
theorem capture_of_restore (hp : p.Proper) (h : p.restore = .ok c) {n : Int}
    (hn : p.chunkSize = .int n) :
    capture c = { p with chunkSize := .int (Channel.chunkSizeOf n) } := by
  obtain ⟨position, hposition⟩ := hp.position
  obtain ⟨limit, hlimit⟩ := hp.limit
  obtain ⟨isOpen, hisOpen⟩ := hp.isOpen
  obtain ⟨ended, hended⟩ := hp.ended
  obtain ⟨_, _, fresh, _, tag, hposition', hlimit', hfresh, hsize, htag, rfl⟩ := restore_eq_ok h
  rw [hposition, Channel.bound_natCast] at hposition'
  rw [hlimit, Channel.bound_natCast] at hlimit'
  rw [hn] at hsize
  cases hposition'
  cases hlimit'
  cases hsize
  have hmade := Channel.isFresh_of_opened hfresh
  obtain ⟨hunread, hserved, -⟩ := (Channel.Made.opened hfresh).unread_eq
  show Checkpoint.mk fresh.object fresh.options (.int (position + fresh.served : Nat))
    (.bool p.isOpen.truthy) (.bool (p.ended.truthy && fresh.unread.isEmpty))
    (.int (Channel.chunkSizeOf n)) (.int limit) (etagValue tag) = _
  rw [hmade.object_eq, hmade.options_eq, hserved, hunread, hisOpen, hended, ← htag, Nat.add_zero,
    ← hposition, ← hlimit, List.isEmpty_nil, Bool.and_true, Value.truthy, Value.truthy, ← hisOpen,
    ← hended]

/-- **A channel that was restored is restored again from what is captured of
it.** -/
theorem restore_capture_of_restore (h : p.restore = .ok c) : (capture c).restore = .ok c := by
  obtain ⟨fresh, hopened, hfresh⟩ := (Channel.Made.restored h).describes
  rw [restore_capture hopened hfresh, Channel.Made.resumed_eq (.restored h)]

/-! ## Renewal -/

/-- **A token written anew**: that of the channel which takes up the read of a
token. -/
def renewed [Nesting] (token : List UInt8) : Except Fault (List UInt8) := do
  let p ← ofToken token
  let c ← p.restore
  (capture c).token

theorem renewed_of_restore [Nesting] (hp : ofToken token = .ok p) (hc : p.restore = .ok c) :
    renewed token = (capture c).token := by
  unfold renewed
  rw [hp, ok_bind, hc, ok_bind]

end Checkpoint

/-! ## The theorem -/

/-- **One renewal settles a token.** Take any bytes that are read as a
checkpoint. It is restored, which asks no source for anything, as a channel
without a chunk. What is captured of that channel is the checkpoint, with its
size of chunks if that is positive and the default otherwise. It has a token;
that token is read as what was captured, and renewed as itself. -/
theorem tokens_settle [Nesting] {token : List UInt8} {p : Checkpoint}
    (h : Checkpoint.ofToken token = .ok p) :
    ∃ (c : Channel) (n : Int) (settled : List UInt8),
      p.restore = .ok c ∧ c.unread = [] ∧ p.chunkSize = .int n
        ∧ Checkpoint.capture c
          = { p with chunkSize := .int (if 0 < n then n else defaultChunkSize) }
        ∧ Checkpoint.renewed token = .ok settled
        ∧ Checkpoint.ofToken settled = .ok (Checkpoint.capture c)
        ∧ Checkpoint.renewed settled = .ok settled := by
  have hproper := Checkpoint.proper_of_ofToken h
  obtain ⟨content, hfits⟩ := Checkpoint.fits_of_ofToken h
  obtain ⟨c, hc⟩ := hproper.exists_restored
  have hcapture := Checkpoint.capture_of_restore hproper hc hfits.chunkSize
  have hagain : (Checkpoint.capture c).Fits
      { content with chunkSize := Channel.chunkSizeOf content.chunkSize } := by
    have hword := isWord_natCast (Channel.chunkSizeOf_lt hfits.chunkSize_fits)
    rw [hcapture]
    exact { hfits with chunkSize := rfl, chunkSize_fits := hword }
  obtain ⟨settled, hwrite, hread⟩ := Checkpoint.ofToken_token hagain rfl rfl
  have hrestored := Checkpoint.restore_capture_of_restore hc
  refine ⟨c, content.chunkSize, settled, hc, (Channel.Made.restored hc).unread_eq.1,
    hfits.chunkSize, ?_, ?_, hread, ?_⟩
  · rw [hcapture, Channel.chunkSizeOf_eq]
  · rw [Checkpoint.renewed_of_restore h hc, hwrite]
  · rw [Checkpoint.renewed_of_restore hread hrestored, hwrite]

/-- A token as no writer writes it. Its fields are in another order, one is there
twice and one is not known; most numbers and sizes take more bytes than they need;
the value of its option is a list of a double of four bytes and false; and its
size of chunks is `-1`. -/
def sampleLoose : List UInt8 :=
  [0xDE, 0, 12]
    ++ MessagePack.writeText "unknown" ++ [0x91, 0xC0]
    ++ MessagePack.writeText "position" ++ [3]
    ++ MessagePack.writeText "limit" ++ [0xCF, 0, 0, 0, 0, 0, 0, 0, 10]
    ++ MessagePack.writeText "last_etag" ++ [0xD9, 1, 0x65]
    ++ MessagePack.writeText "request_options" ++ [0x91, 0x92]
    ++ MessagePack.writeText OptionKind.userProject.wireName
    ++ [0xDC, 0, 2, 0xCA, 0x3F, 0x80, 0, 0, 0xC2]
    ++ MessagePack.writeText "chunk_size" ++ [0xFF]
    ++ MessagePack.writeText "is_open" ++ [0xC3]
    ++ MessagePack.writeText "end_of_stream" ++ [0xC2]
    ++ MessagePack.writeText "generation" ++ [0xCD, 0, 7]
    ++ MessagePack.writeText "bucket" ++ [0xA1, 0x62]
    ++ MessagePack.writeText "name" ++ [0xA1, 0x6E]
    ++ MessagePack.writeText "position" ++ [0xCE, 0, 0, 0, 4]

/-- The token that it settles to. -/
def sampleSettled : List UInt8 :=
  [0x8A]
    ++ MessagePack.writeText "bucket" ++ [0xA1, 0x62]
    ++ MessagePack.writeText "name" ++ [0xA1, 0x6E]
    ++ MessagePack.writeText "generation" ++ [7]
    ++ MessagePack.writeText "request_options" ++ [0x91, 0x92]
    ++ MessagePack.writeText OptionKind.userProject.wireName
    ++ [0x92, 0xCB, 0x3F, 0xF0, 0, 0, 0, 0, 0, 0, 0xC2]
    ++ MessagePack.writeText "position" ++ [4]
    ++ MessagePack.writeText "is_open" ++ [0xC3]
    ++ MessagePack.writeText "end_of_stream" ++ [0xC2]
    ++ MessagePack.writeText "chunk_size" ++ [0xCE, 0, 0x20, 0, 0]
    ++ MessagePack.writeText "limit" ++ [10]
    ++ MessagePack.writeText "last_etag" ++ [0xA1, 0x65]

theorem tokens_settle_sample :
    ∃ p c, Checkpoint.ofToken sampleLoose = .ok p ∧ p.restore = .ok c ∧ c.unread = []
      ∧ p.chunkSize = .int (-1)
      ∧ Checkpoint.capture c = { p with chunkSize := .int defaultChunkSize }
      ∧ Checkpoint.renewed sampleLoose = .ok sampleSettled
      ∧ Checkpoint.ofToken sampleSettled = .ok (Checkpoint.capture c)
      ∧ Checkpoint.renewed sampleSettled = .ok sampleSettled := by
  have hsize : (Checkpoint.ofToken sampleLoose).toOption.bind (fun p => p.chunkSize.asInt?)
      = some (-1) := by decide +kernel
  have hbytes : (Checkpoint.renewed sampleLoose).toOption = some sampleSettled := by decide +kernel
  cases hp : Checkpoint.ofToken sampleLoose with
  | error fault =>
    rw [hp] at hsize
    cases hsize
  | ok p =>
    obtain ⟨c, n, settled, hc, hunread, hn, hcapture, hrenewed, hread, hfixed⟩ := tokens_settle hp
    rw [hp] at hsize
    have hn' : n = -1 := by
      rw [show (Except.ok p : Except Fault Checkpoint).toOption = some p from rfl,
        Option.bind_some, hn] at hsize
      exact Option.some.inj hsize
    rw [hrenewed] at hbytes
    cases hn'
    cases hbytes
    exact ⟨p, c, rfl, hc, hunread, hn, hcapture, hrenewed, hread, hfixed⟩

end RangeReader

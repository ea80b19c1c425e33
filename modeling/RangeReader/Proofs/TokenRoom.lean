import RangeReader.Proofs.ReadInRange
import RangeReader.Proofs.RoundTrip

/-!
# Which channels a token has room for

Four parties look at the data of a channel: the one who opens it, its
operations, the writer of the token and its reader. They do not ask for the
same. A channel is opened for any generation that can be made an integer, a
text of digits and a flag among them, and for a bucket and a name that can be
made texts; it is moved to any natural number, and its chunks may have the size
of any number, with a fraction too. The reader of a token wants all of these to
be of their own kinds as they stand, and the writer has 64 bits for a number and
four bytes for a size. So it matters what a caller wrote, which a channel keeps
and its requests do not (`GivenChannel`).

`GivenChannel.HasRoom` is what writer and reader ask for, and it is exact. With
it a checkpoint is written and read back as itself, if the values of the options
can travel; without it either the writer or the reader refuses, and never is a
token read back as something else (`GivenChannel.hasRoom_of_read`). Of the
numbers of a channel it is enough that its operations were given numbers in
range.
-/

namespace RangeReader

/-- **A channel that a token has room for**, apart from its options. -/
structure Channel.HasRoom (c : Channel) : Prop where
  bucket : (Text.Utf8.encode c.object.bucket).length < sizeLimit
  name : (Text.Utf8.encode c.object.name).length < sizeLimit
  generation : c.object.generation = .null ∨ ∃ n, c.object.generation = .int n ∧ IsWord n
  bounded : c.Bounded
  lastEtag : ∀ t, c.lastEtag = some t → (Text.Utf8.encode t).length < sizeLimit

open Checkpoint MessagePack

/-! ## Channels as they were given -/

/-- **A channel, with the values that its caller gave.** The bucket and the name
are what texts are read from, and the size of chunks is what some value asks for;
where that is an integer, it is the one of the channel. -/
structure GivenChannel where
  /-- The channel. -/
  channel : Channel
  /-- The bucket as it was given. -/
  bucket : Value
  /-- The name as it was given. -/
  name : Value
  /-- The size of chunks as it was set. -/
  chunkSize : Value
  bucket_eq : ObjectRecord.textOf bucket = .ok channel.object.bucket
  name_eq : ObjectRecord.textOf name = .ok channel.object.name
  chunkSize_normal : ∃ asked, Channel.normalChunkSize asked = .ok chunkSize
  chunkSize_eq : ∀ n, chunkSize = .int n → n = channel.chunkSize

namespace GivenChannel

/-- A channel that was given texts and an integer. -/
def ofChannel (c : Channel) : GivenChannel where
  channel := c
  bucket := .text c.object.bucket
  name := .text c.object.name
  chunkSize := .int c.chunkSize
  bucket_eq := rfl
  name_eq := rfl
  chunkSize_normal := by
    refine ⟨.int c.chunkSize, ?_⟩
    have hpos := c.chunkSize_pos
    show Except.ok (if (c.chunkSize : Int) ≤ 0 then _ else _) = _
    rw [if_neg (by omega)]
  chunkSize_eq := fun n hn => (Value.int.inj hn).symm

/-- **The fields of its token**: what was given stands as it was given. -/
def fieldValue (g : GivenChannel) : Field → Value
  | .bucket => g.bucket
  | .name => g.name
  | .chunkSize => g.chunkSize
  | field => (capture g.channel).fieldValue field

/-- **Its checkpoint, sent and received**: written as a token, and read back. -/
def sent [Nesting] (g : GivenChannel) : Except Fault Checkpoint := do
  ofToken (← tokenOf g.fieldValue)

/-- **Its checkpoint arrives** as it was sent, and equal to it. -/
def Arrives [Nesting] (g : GivenChannel) : Prop :=
  ∃ p, g.sent = .ok p ∧ (∀ field, p.fieldValue field = g.fieldValue field) ∧ p.same p = true

/-- The bucket and the name were given as texts, and the size of chunks as an
integer. -/
structure Verbatim (g : GivenChannel) : Prop where
  bucket : ∃ s, g.bucket = .text s
  name : ∃ s, g.name = .text s
  chunkSize : ∃ n, g.chunkSize = .int n

/-- **There is room for what was given**, apart from the options. -/
structure HasRoom (g : GivenChannel) : Prop where
  verbatim : g.Verbatim
  channel : g.channel.HasRoom

end GivenChannel

/-- **Options that travel**: they are not too many, and each of their values can
and equals itself. -/
structure ReadOption.AllTravel [Nesting] (options : List ReadOption) : Prop where
  length_lt : options.length < sizeLimit
  portable : ∀ o ∈ options, o.value.Portable (nestingLimit - 3)
  same_self : ∀ o ∈ options, o.value.same o.value = true

namespace GivenChannel

variable {g : GivenChannel} {p : Checkpoint} {token : List UInt8}

/-- What was given verbatim is what the channel has. -/
theorem fieldValue_eq (h : g.Verbatim) : g.fieldValue = (capture g.channel).fieldValue := by
  obtain ⟨bucket, hbucket⟩ := h.bucket
  obtain ⟨name, hname⟩ := h.name
  obtain ⟨n, hn⟩ := h.chunkSize
  funext field
  cases field with
  | bucket =>
    have htext := g.bucket_eq
    rw [hbucket] at htext
    exact hbucket.trans (congrArg Value.text (Except.ok.inj htext))
  | name =>
    have htext := g.name_eq
    rw [hname] at htext
    exact hname.trans (congrArg Value.text (Except.ok.inj htext))
  | chunkSize => exact hn.trans (congrArg Value.int (g.chunkSize_eq n hn))
  | _ => rfl

/-- An offset that is written is in range. -/
theorem lt_of_written {depth n : Nat} (h : ∃ bytes, writeValue depth (.int n) = .ok bytes) :
    n < wordLimit := by
  obtain ⟨bytes, hwrite⟩ := h
  have hword := (isWord_of_writeValue hwrite).2
  unfold wordLimit
  omega

/-- **A checkpoint that is written and read is one there is room for.** -/
theorem hasRoom_of_read [Nesting] (hw : tokenOf g.fieldValue = .ok token)
    (hr : ofToken token = .ok p) : g.HasRoom := by
  obtain ⟨content, hcontent, -⟩ := ofToken_eq_ok hr
  have hechoes := echoes_of_token hw hcontent
  have hverbatim : g.Verbatim :=
    ⟨⟨_, hechoes.bucket⟩, ⟨_, hechoes.name⟩, ⟨_, hechoes.chunkSize⟩⟩
  rw [fieldValue_eq hverbatim] at hw hechoes
  have hwritten := written_of_tokenOf hw
  have hgeneration : g.channel.object.generation = content.generation.elim .null .int :=
    hechoes.generation
  refine ⟨hverbatim, ⟨?_, ?_, ?_, ⟨?_, ?_, ?_⟩, ?_⟩⟩
  · obtain ⟨bytes, hbucket⟩ := hwritten .bucket
    exact length_of_writeText hbucket
  · obtain ⟨bytes, hname⟩ := hwritten .name
    exact length_of_writeText hname
  · cases hn : content.generation with
    | none =>
      rw [hn] at hgeneration
      exact .inl hgeneration
    | some n =>
      rw [hn] at hgeneration
      obtain ⟨bytes, hwrite⟩ := hwritten .generation
      rw [show (capture g.channel).fieldValue .generation = .int n from hgeneration] at hwrite
      exact .inr ⟨n, hgeneration, isWord_of_writeValue hwrite⟩
  · exact lt_of_written (hwritten .position)
  · exact lt_of_written (hwritten .limit)
  · exact lt_of_written (hwritten .chunkSize)
  · intro tag htag
    obtain ⟨bytes, hwrite⟩ := hwritten .lastEtag
    rw [show (capture g.channel).fieldValue .lastEtag = .text tag from
      congrArg etagValue htag] at hwrite
    exact length_of_writeText hwrite

/-- **A checkpoint that there is room for arrives**, with options that travel. -/
theorem arrives_of_hasRoom [Nesting] (hroom : g.HasRoom)
    (hoptions : ReadOption.AllTravel g.channel.options) : g.Arrives := by
  have htarget : HoldsTarget g.channel.object g.channel.options :=
    ⟨hroom.channel.bucket, hroom.channel.name, hroom.channel.generation, hoptions.length_lt,
      hoptions.portable⟩
  obtain ⟨content, hfits⟩ := fits_capture htarget hroom.channel.bounded hroom.channel.lastEtag
  obtain ⟨token, hwrite, hread⟩ := ofToken_token hfits rfl rfl
  refine ⟨capture g.channel, ?_, fun field => ?_, hfits.same_self hoptions.same_self⟩
  · unfold sent
    rw [fieldValue_eq hroom.verbatim, show tokenOf (capture g.channel).fieldValue = _ from hwrite,
      ok_bind]
    exact hread
  · rw [fieldValue_eq hroom.verbatim]

/-- **Any other is refused.** -/
theorem sent_of_not_hasRoom [Nesting] (hroom : ¬ g.HasRoom) : ∃ fault, g.sent = .error fault := by
  cases hsent : g.sent with
  | error fault => exact ⟨fault, rfl⟩
  | ok p =>
    obtain ⟨token, hw, hr⟩ := eq_ok_of_bind hsent
    exact absurd (hasRoom_of_read hw hr) hroom

/-- **The options of a checkpoint that arrives travel.** What was read can travel, as
it came out of a token. -/
theorem allTravel_of_arrives [Nesting] (h : g.Arrives) :
    ReadOption.AllTravel g.channel.options := by
  obtain ⟨p, hsent, hfields, hsame⟩ := h
  obtain ⟨token, -, hr⟩ := eq_ok_of_bind hsent
  obtain ⟨content, hcontent, -, hnamed, -⟩ := ofToken_eq_ok hr
  obtain ⟨hlength, hportable⟩ := (gives_readContent.of_run hcontent).options
  have hvalue : p.fieldValue .options = (capture g.channel).fieldValue .options :=
    hfields .options
  rw [fieldValue_options, fieldValue_options] at hvalue
  have heq : p.options = g.channel.options :=
    namedOptions_injective (pairOf_injective.list_map (Value.list.inj hvalue))
  rw [← hnamed, namedOptions, List.length_map] at hlength
  rw [← hnamed] at hportable
  unfold Checkpoint.same at hsame
  rw [Bool.and_eq_true, Bool.and_eq_true] at hsame
  rw [← heq]
  exact ⟨hlength, fun o ho => hportable _ (List.mem_map_of_mem ho),
    sameOptions_self.mp hsame.1.2⟩

end GivenChannel

/-! ## The theorem -/

/-- **Which checkpoints arrive.** Take a channel in any state, with the values
that its caller gave. Its checkpoint arrives as it was sent, and equal to it, if
there is room for the object, the numbers and the tag and the options travel, and
only then. Without room for what is not an option it is refused. Of a channel just
opened and used, over any source, there is room for the numbers if every operation
with a number was given one in range. -/
theorem checkpoint_sent_iff [Nesting] (g : GivenChannel) :
    (g.HasRoom ∧ ReadOption.AllTravel g.channel.options ↔ g.Arrives)
      ∧ (¬ g.HasRoom → ∃ fault, g.sent = .error fault)
      ∧ ∀ {σ : Type} (source : Source σ) {object : ObjectId} {options : List ReadOption}
        {fresh : Channel} (ops : List Operation) (s : σ) {outcomes : List Outcome} {t : σ},
        Channel.opened object options = .ok fresh →
          Channel.performAll source ops fresh s = (outcomes, g.channel, t) →
          (∀ op ∈ ops, op.InRange) → g.channel.Bounded := by
  refine ⟨⟨fun h => g.arrives_of_hasRoom h.1 h.2, fun h => ⟨?_, g.allTravel_of_arrives h⟩⟩,
    g.sent_of_not_hasRoom, fun source _ _ _ ops s _ _ hc hrun hops => ?_⟩
  · obtain ⟨p, hsent, -⟩ := h
    obtain ⟨token, hw, hr⟩ := eq_ok_of_bind hsent
    exact GivenChannel.hasRoom_of_read hw hr
  · have hbounded := (Channel.Bounded.opened hc).performAll source hops s
    rw [hrun] at hbounded
    exact hbounded

/-- A use that leaves a channel in the middle of a chunk, with a limit. -/
def sampleBound : List Operation := [.setChunkSize 4, .readInto 1, .setLimit (.int 3)]

theorem checkpoint_sent_iff_sample :
    ∃ fresh c outcomes, Channel.opened sampleId [] = .ok fresh
      ∧ Channel.performAll Source.overfull sampleBound fresh () = (outcomes, c, ())
      ∧ c.pointer = 1 ∧ c.limit = 3 ∧ c.unread = [66, 67, 68]
      ∧ (GivenChannel.ofChannel c).HasRoom ∧ (GivenChannel.ofChannel c).Arrives := by
  have hused : ∃ fresh c outcomes, Channel.opened sampleId [] = .ok fresh
      ∧ Channel.performAll Source.overfull sampleBound fresh () = (outcomes, c, ())
      ∧ (c.pointer = 1 ∧ c.limit = 3 ∧ c.unread = [66, 67, 68])
      ∧ c.object = sampleId ∧ c.options = [] ∧ c.lastEtag = some "v1" :=
    ⟨_, _, _, rfl, rfl, ⟨rfl, rfl, rfl⟩, rfl, rfl, rfl⟩
  obtain ⟨fresh, c, outcomes, hopened, hrun, ⟨hpointer, hlimit, hunread⟩, hobject, hoptions,
    htag⟩ := hused
  obtain ⟨harrives, -, hbounded⟩ := checkpoint_sent_iff (GivenChannel.ofChannel c)
  have hops : ∀ op ∈ sampleBound, op.InRange := by
    simp [sampleBound, Operation.InRange, IsWord]
  have hroom : c.HasRoom := {
    bucket := by rw [hobject]; decide
    name := by rw [hobject]; decide
    generation := by rw [hobject]; exact .inl rfl
    bounded := hbounded Source.overfull sampleBound () hopened hrun hops
    lastEtag := fun t ht => by
      rw [htag] at ht
      exact Option.some.inj ht ▸ by decide }
  have hgiven : (GivenChannel.ofChannel c).HasRoom := ⟨⟨⟨_, rfl⟩, ⟨_, rfl⟩, ⟨_, rfl⟩⟩, hroom⟩
  have htravel : ReadOption.AllTravel c.options := by
    rw [hoptions]
    exact ⟨by decide, List.forall_mem_nil _, List.forall_mem_nil _⟩
  exact ⟨fresh, c, outcomes, hopened, hrun, hpointer, hlimit, hunread, hgiven,
    harrives.mp ⟨hgiven, htravel⟩⟩

/-- An object whose generation is a text. -/
def sampleTextId : ObjectId := { sampleId with generation := .text "5" }

/-- Two and a half. -/
def twoAndAHalf : Binary64 := ⟨0x4004000000000000⟩

/-- A double that is not a number. -/
def notANumber : Binary64 := ⟨0x7FF8000000000000⟩

/-- So many lists in each other. -/
def nestedLists : Nat → Value
  | 0 => .null
  | count + 1 => .list [nestedLists count]

/-- Lists in each other can travel to a greater depth only. -/
theorem lt_of_portable_nestedLists {count depth : Nat} (h : (nestedLists count).Portable depth) :
    count < depth := by
  induction count generalizing depth with
  | zero =>
    cases depth with
    | zero => exact h.elim
    | succ depth => exact Nat.succ_pos depth
  | succ count ih =>
    cases depth with
    | zero => exact h.elim
    | succ depth => exact Nat.succ_lt_succ (ih (h.2 _ List.mem_cons_self))

/-- **Not every checkpoint arrives.** A channel is opened for a generation that is
a text of digits or a flag and for a bucket that is bytes, its limit is set beyond
64 bits and its size of chunks to two and a half; none of these can be sent. With
an option that is not a number, or nested too deeply, nothing arrives that equals
what was sent. -/
theorem not_every_checkpoint_sent :
    (∀ object ∈ [sampleTextId, sampleFlagId], ∃ c, Channel.opened object [] = .ok c
        ∧ ∃ fault, (GivenChannel.ofChannel c).sent = .error fault)
      ∧ (∃ g : GivenChannel, Channel.opened sampleId [] = .ok g.channel
        ∧ g.bucket = .bytes (Text.Utf8.encode sampleId.bucket) ∧ ∃ fault, g.sent = .error fault)
      ∧ (∃ g : GivenChannel, Channel.opened sampleId [] = .ok g.channel
        ∧ Channel.normalChunkSize (.float twoAndAHalf) = .ok g.chunkSize
        ∧ ∃ fault, g.sent = .error fault)
      ∧ (∃ c after, Channel.opened sampleId [] = .ok c
        ∧ Channel.performAll Source.overfull [.setLimit (.int 0x10000000000000000)] c ()
          = ([.done], after, ())
        ∧ ∃ fault, (GivenChannel.ofChannel after).sent = .error fault)
      ∧ ∀ v ∈ [Value.float notANumber, nestedLists 1000],
        ∃ c, Channel.opened sampleId [⟨.userProject, v⟩] = .ok c
          ∧ ¬ (GivenChannel.ofChannel c).Arrives := by
  obtain ⟨c, hopened⟩ : ∃ c, Channel.opened sampleId [] = .ok c := ⟨_, rfl⟩
  have hobject := (Channel.isFresh_of_opened hopened).object_eq
  have hhalf : Channel.normalChunkSize (.float twoAndAHalf) = .ok (.float twoAndAHalf) := by rfl
  have hbytes : ObjectRecord.textOf (.bytes (Text.Utf8.encode sampleId.bucket))
      = .ok c.object.bucket := by
    rw [hobject]
    rfl
  refine ⟨?_, ⟨{ GivenChannel.ofChannel c with bucket := _, bucket_eq := hbytes }, hopened, rfl,
      GivenChannel.sent_of_not_hasRoom fun hroom => ?_⟩,
    ⟨{ GivenChannel.ofChannel c with
        chunkSize := _, chunkSize_normal := ⟨_, hhalf⟩, chunkSize_eq := nofun },
      hopened, hhalf, GivenChannel.sent_of_not_hasRoom fun hroom => ?_⟩,
    ⟨_, _, rfl, rfl, GivenChannel.sent_of_not_hasRoom fun hroom => ?_⟩, ?_⟩
  · intro object hmem
    simp only [List.mem_cons, List.not_mem_nil, or_false] at hmem
    rcases hmem with rfl | rfl
    all_goals
      refine ⟨_, rfl, GivenChannel.sent_of_not_hasRoom fun hroom => ?_⟩
      rcases hroom.channel.generation with hnull | ⟨n, hn, -⟩
      · cases hnull
      · cases hn
  · obtain ⟨s, hs⟩ := hroom.verbatim.bucket
    cases hs
  · obtain ⟨n, hn⟩ := hroom.verbatim.chunkSize
    cases hn
  · exact absurd hroom.channel.bounded.limit_lt (by decide)
  · intro v hv
    refine ⟨_, rfl, fun harrives => ?_⟩
    have htravel := GivenChannel.allTravel_of_arrives harrives
    simp only [List.mem_cons, List.not_mem_nil, or_false] at hv
    rcases hv with rfl | rfl
    · exact absurd (htravel.same_self _ List.mem_cons_self) (by decide)
    · exact absurd (lt_of_portable_nestedLists (htravel.portable _ List.mem_cons_self)) (by decide)

end RangeReader

import RangeReader.Held
import RangeReader.Http.Server
import RangeReader.Proofs.FetchLog
import RangeReader.Proofs.Reissue

/-!
# HTTP as good as memory

A channel over HTTP does what a channel over the same content in memory does,
whether the service keeps to ranges or always sends the whole object. The three
ways to an answer – a part of the object, a part cut out of the whole of it,
the status that says there is nothing – agree on the bytes. They do not agree
on the tag: of a range past the end the whole object has one, the status and
the memory have none. So the channels are in lockstep but for the tag of the
content fetched last.

`Source.Presents` is what the sources have in common: the bytes are those of
the object, and the tag is that of the object, or there are neither bytes nor a
tag. Any two sources that present the same object give lockstep
(`lockstep_of_presents`), because tags of one object never clash.
-/

namespace RangeReader

/-! ## Presenting an object -/

/-- An answer has the tag of an object, or neither a tag nor bytes. -/
def Fetched.IsTagged (tag : Option String) (answer : Fetched) : Prop :=
  answer.etag = tag ∨ answer.etag = none ∧ answer.data = []

/-- **A source presents an object** to requests with certain options: requests
for at least one byte get the bytes that the object has there, and are counted
among those seen, the last one first. -/
structure Source.Presents {σ : Type} (source : Source σ) (h : Held) (options : List ReadOption)
    (seen : σ → List (Nat × Nat)) : Prop where
  fetch : ∀ request s, 0 < request.length → request.options = options →
    ∃ answer s', source.fetch request s = (.ok answer, s')
      ∧ answer.data = h.slice request.offset request.length ∧ answer.IsTagged h.etag
      ∧ seen s' = (request.offset, request.length) :: seen s
  note : ∀ event s, seen (source.note event s) = seen s

/-- **A policy that takes every answer.** -/
def RetryPolicy.TakesAnswers {σ : Type} (policy : RetryPolicy Fetched σ) : Prop :=
  ∀ answer, policy.retries (.ok answer) = false

/-- Behind a policy that takes every answer a source presents what it does
without. -/
theorem Source.Presents.retrying {σ : Type} {source : Source σ} {h : Held}
    {options : List ReadOption} {seen : σ → List (Nat × Nat)}
    (hs : source.Presents h options seen) {policy : RetryPolicy Fetched σ}
    (hp : policy.TakesAnswers) : (source.retrying policy).Presents h options seen where
  fetch request s hr ho := by
    obtain ⟨answer, s', hfetch, hrest⟩ := hs.fetch request s hr ho
    exact ⟨answer, s', RetryPolicy.operate_of_kept hfetch (hp answer) rfl, hrest⟩
  note := hs.note

/-- The range of an entry of a log; none for a move. -/
def LogEntry.range? : LogEntry → Option (Nat × Nat)
  | .fetch request _ => some (request.offset, request.length)
  | .move _ => none

/-- A held object presents itself. -/
theorem Held.presents {σ : Type} (h : Held) (options : List ReadOption) :
    (h.source : Source σ).logged.Presents h options fun t => t.2.filterMap LogEntry.range? where
  fetch request t _ _ := by
    refine ⟨h.answer request, _, rfl, h.data_answer request, ?_, rfl⟩
    unfold answer
    split
    · exact .inr ⟨rfl, rfl⟩
    · exact .inl rfl
  note event t := by cases event <;> rfl

/-! ## Channels but for a tag -/

namespace Channel

/-- A channel with another tag of the content fetched last. -/
def retagged (c : Channel) (etag : Option String) : Channel := { c with lastEtag := etag }

variable {σ τ : Type} {c c' : Channel} {capacity : Nat} {etag : Option String}

theorem passed_retagged (c : Channel) (etag : Option String) (n : Nat) :
    (c.retagged etag).passed n = (c.passed n).retagged etag := by
  unfold passed
  rw [show (c.retagged etag).unread = c.unread from rfl]
  split <;> rfl

/-- What a chunk just fetched gives: bytes of it, or the end where it has
none. -/
def handOut (c : Channel) (capacity : Nat) : Delivery × Channel :=
  if c.unread.isEmpty then (.ended, c) else c.serve capacity

theorem handOut_retagged (c : Channel) (etag : Option String) (capacity : Nat) :
    (c.retagged etag).handOut capacity
      = ((c.handOut capacity).1, (c.handOut capacity).2.retagged etag) := by
  unfold handOut
  rw [show (c.retagged etag).unread = c.unread from rfl]
  split
  · rfl
  · exact Prod.ext rfl (passed_retagged c etag (c.allowance capacity))

theorem options_passed (c : Channel) (n : Nat) : (c.passed n).options = c.options :=
  congrArg (fun target => target.2.2) (target_passed c n)

theorem options_handOut (c : Channel) (capacity : Nat) :
    (c.handOut capacity).2.options = c.options := by
  unfold handOut
  split
  · rfl
  · exact options_passed c _

theorem lastEtag_handOut (c : Channel) (capacity : Nat) :
    (c.handOut capacity).2.lastEtag = c.lastEtag := by
  unfold handOut
  split
  · rfl
  · exact lastEtag_passed c _

theorem modification_handOut (c : Channel) (capacity : Nat) :
    (c.handOut capacity).2.modification = c.modification := by
  unfold handOut
  split
  · rfl
  · exact modification_passed c _

/-- Tags of one object do not clash. -/
theorem clashes_of_isTagged {tag : Option String} (hc : c.lastEtag = none ∨ c.lastEtag = tag)
    {answer : Fetched} (ha : answer.IsTagged tag) (n : Nat) :
    c.clashes answer.etag (answer.data.take n) = false := by
  rw [Bool.eq_false_iff]
  intro hclash
  obtain ⟨hdata, last, hlast, hne⟩ := (clashes_iff c _ _).mp hclash
  rcases ha with htag | ⟨-, hnil⟩
  · rcases hc with hnone | hknown
    · exact absurd (hnone.symm.trans hlast) nofun
    · exact hne (htag.trans (hknown.symm.trans hlast))
  · rw [hnil, List.take_nil] at hdata
    exact hdata rfl

/-- **A fetch whose answer does not clash** hands it out, and changes the source
no further. -/
theorem fetchInto_of_agrees {source : Source σ} {s s' : σ} {answer : Fetched}
    (hm : c.modification = none)
    (hfetch : c.answered source capacity s = (.ok answer, s'))
    (hc : c.clashes answer.etag (answer.data.take (c.wanted capacity)) = false) :
    c.fetchInto source capacity s
      = (((c.withChunk (c.wanted capacity) answer.etag
          (answer.data.take (c.wanted capacity))).handOut capacity).1,
        ((c.withChunk (c.wanted capacity) answer.etag
          (answer.data.take (c.wanted capacity))).handOut capacity).2, s') := by
  have haccept : c.accept capacity (c.wanted capacity) answer
      = (c.withChunk (c.wanted capacity) answer.etag
          (answer.data.take (c.wanted capacity))).handOut capacity :=
    if_neg (ne_true_of_eq_false hc)
  unfold answered at hfetch
  unfold fetchInto
  simp only [hfetch, haccept]
  unfold noteChange
  rw [modification_handOut, show (c.withChunk (c.wanted capacity) answer.etag
    (answer.data.take (c.wanted capacity))).modification = none from hm, hm]

/-- **Channels that differ in nothing but a tag**, both over the same object:
the tag of either is that of the object or none, and the requests seen are the
same. -/
structure ButTag (tag : Option String) (options : List ReadOption) (seen : σ → List (Nat × Nat))
    (seen' : τ → List (Nat × Nat)) (c : Channel) (s : σ) (c' : Channel) (t : τ) : Prop where
  same : c' = c.retagged c'.lastEtag
  options_eq : c.options = options
  known : c.lastEtag = none ∨ c.lastEtag = tag
  known' : c'.lastEtag = none ∨ c'.lastEtag = tag
  seen_eq : seen s = seen' t

variable {tag : Option String} {options : List ReadOption} {seen : σ → List (Nat × Nat)}
variable {seen' : τ → List (Nat × Nat)} {s s₁ : σ} {t t₁ : τ}

/-- What leaves the tag and the options alone keeps channels the same but for
the tag. -/
theorem ButTag.step (h : ButTag tag options seen seen' c s (c.retagged etag) t)
    {after : Channel} (ho : after.options = c.options) (he : after.lastEtag = c.lastEtag)
    (hseen : seen s₁ = seen s) (hseen' : seen' t₁ = seen' t) :
    ButTag tag options seen seen' after s₁ (after.retagged etag) t₁ where
  same := rfl
  options_eq := ho.trans h.options_eq
  known := he.symm ▸ h.known
  known' := h.known'
  seen_eq := hseen.trans (h.seen_eq.trans hseen'.symm)

section Lockstep

variable {held : Held} {first : Source σ} {second : Source τ}

/-- **A fetch gives the same bytes on both sides.** -/
theorem fetchInto_butTag (h : first.Presents held options seen)
    (h' : second.Presents held options seen')
    (hst : ButTag held.etag options seen seen' c s (c.retagged etag) t)
    (hm : c.modification = none) (hw : 0 < c.wanted capacity) :
    Alike (ButTag held.etag options seen seen') (c.fetchInto first capacity s)
      ((c.retagged etag).fetchInto second capacity t) := by
  obtain ⟨answer, s', hfetch, hdata, htag, hseen⟩ := h.fetch (c.request (c.wanted capacity))
    (first.note (.fetching (c.wanted capacity) c.object.text c.pointer) s) hw hst.options_eq
  obtain ⟨answer', t', hfetch', hdata', htag', hseen'⟩ := h'.fetch
    (c.request (c.wanted capacity))
    (second.note (.fetching (c.wanted capacity) c.object.text c.pointer) t) hw hst.options_eq
  have hagree : c.clashes answer.etag (answer.data.take (c.wanted capacity)) = false :=
    clashes_of_isTagged hst.known htag _
  have hagree' : (c.retagged etag).clashes answer'.etag
      (answer'.data.take ((c.retagged etag).wanted capacity)) = false :=
    clashes_of_isTagged hst.known' htag' _
  have hknown : answer.etag = none ∨ answer.etag = held.etag :=
    htag.elim .inr fun hnone => .inl hnone.1
  have hknown' : answer'.etag = none ∨ answer'.etag = held.etag :=
    htag'.elim .inr fun hnone => .inl hnone.1
  have hend : seen s' = seen' t' := by
    rw [hseen, hseen', h.note, h'.note, hst.seen_eq]
  have hfilled : ButTag held.etag options seen seen'
      (c.withChunk (c.wanted capacity) answer.etag (answer.data.take (c.wanted capacity))) s'
      ((c.withChunk (c.wanted capacity) answer.etag (answer.data.take (c.wanted capacity))).retagged
        answer'.etag) t' :=
    ⟨rfl, hst.options_eq, hknown, hknown', hend⟩
  have hsame : (c.retagged etag).withChunk ((c.retagged etag).wanted capacity) answer'.etag
        (answer'.data.take ((c.retagged etag).wanted capacity))
      = (c.withChunk (c.wanted capacity) answer.etag
        (answer.data.take (c.wanted capacity))).retagged answer'.etag := by
    rw [hdata, hdata']
    rfl
  rw [fetchInto_of_agrees hm hfetch hagree, fetchInto_of_agrees (c := c.retagged etag) hm hfetch'
    hagree', hsame, handOut_retagged]
  exact ⟨rfl, hfilled.step (options_handOut _ _) (lastEtag_handOut _ _) rfl rfl⟩

/-- **A read gives the same on both sides.** -/
theorem readInto_butTag (h : first.Presents held options seen)
    (h' : second.Presents held options seen')
    (hst : ButTag held.etag options seen seen' c s (c.retagged etag) t) (capacity : Nat) :
    Alike (ButTag held.etag options seen seen') (c.readInto first capacity s)
      ((c.retagged etag).readInto second capacity t) := by
  unfold readInto
  rw [show (c.retagged etag).isOpen = c.isOpen from rfl,
    show (c.retagged etag).unread = c.unread from rfl,
    show (c.retagged etag).limit = c.limit from rfl,
    show (c.retagged etag).pointer = c.pointer from rfl,
    show (c.retagged etag).ended = c.ended from rfl,
    show (c.retagged etag).modification = c.modification from rfl]
  split
  · exact ⟨rfl, hst⟩
  split
  · split
    · exact ⟨rfl, hst.step rfl rfl rfl rfl⟩
    · refine ⟨rfl, ?_⟩
      show ButTag held.etag options seen seen' (c.passed (c.allowance capacity)) s
        ((c.retagged etag).passed (c.allowance capacity)) t
      rw [passed_retagged]
      exact hst.step (options_passed c _) (lastEtag_passed c _) rfl rfl
  split
  · exact ⟨rfl, hst⟩
  split
  · exact ⟨rfl, hst⟩
  · rename_i hm
    split
    · exact ⟨rfl, hst.step rfl rfl rfl rfl⟩
    split
    · exact ⟨rfl, hst⟩
    · rename_i hlimit hcapacity
      refine fetchInto_butTag h h' hst hm ?_
      unfold wanted
      omega

/-- **Channels over sources that present the same object are in lockstep**, but
for a tag. -/
theorem lockstep_of_presents (h : first.Presents held options seen)
    (h' : second.Presents held options seen') :
    Lockstep first second (ButTag held.etag options seen seen') where
  isOpen_eq hst := by
    rw [hst.same]
    rfl
  pointer_eq hst := by
    rw [hst.same]
    rfl
  chunkSize_eq hst := by
    rw [hst.same]
    rfl
  readInto {c s c' t} hst capacity := by
    obtain ⟨etag, rfl⟩ : ∃ etag, c' = c.retagged etag := ⟨_, hst.same⟩
    exact readInto_butTag h h' hst capacity
  closed {c s c' t} hst := by
    obtain ⟨etag, rfl⟩ : ∃ etag, c' = c.retagged etag := ⟨_, hst.same⟩
    exact hst.step rfl rfl rfl rfl
  moved {c s c' t} hst position := by
    obtain ⟨etag, rfl⟩ : ∃ etag, c' = c.retagged etag := ⟨_, hst.same⟩
    exact hst.step rfl rfl (h.note _ _) (h'.note _ _)
  limited {c s c' t} hst limit := by
    obtain ⟨etag, rfl⟩ : ∃ etag, c' = c.retagged etag := ⟨_, hst.same⟩
    exact hst.step rfl rfl rfl rfl
  resized {c s c' t} hst n := by
    obtain ⟨etag, rfl⟩ : ∃ etag, c' = c.retagged etag := ⟨_, hst.same⟩
    exact hst.step rfl rfl rfl rfl

end Lockstep

/-- **What a run shows**: the outcomes of its operations, the channels on the
way without their tags, and the requests seen, the last one first. -/
def shown (source : Source σ) (seen : σ → List (Nat × Nat)) (ops : List Operation) (c : Channel)
    (s : σ) : List Outcome × List Channel × List (Nat × Nat) :=
  ((performAll source ops c s).1, (channels source ops c s).map fun c => c.retagged none,
    seen (performAll source ops c s).2.2)

/-- **Runs over the same object show the same.** -/
theorem shown_eq {held : Held} {first : Source σ} {second : Source τ}
    (h : first.Presents held options seen) (h' : second.Presents held options seen')
    (ho : c.options = options) (he : c.lastEtag = none) (hseen : seen s = seen' t)
    (ops : List Operation) : c.shown first seen ops s = c.shown second seen' ops t := by
  have hstart : ButTag held.etag options seen seen' c s c t :=
    ⟨rfl, ho, .inl he, .inl he, hseen⟩
  have hlockstep := lockstep_of_presents h h'
  obtain ⟨hresult, hstate⟩ := hlockstep.performAll hstart ops
  have hchannels := hlockstep.channels (f := fun c => c.retagged none) hstart
    (fun hst => by rw [hst.same]; rfl) ops
  unfold shown
  rw [hresult, hchannels, hstate.seen_eq]

end Channel

namespace Http

variable {σ : Type} {session : Session σ} {h : Hosted} {get : Get}

/-! ## A service -/

/-- **The object behind a service**, with the tag of the tag header or, where
that one is empty or missing, the generation. -/
def Hosted.held (h : Hosted) : Held := ⟨h.data, (given? h.etag).or h.generation⟩

/-- **A session that reaches a service**: every GET is answered as the service
answers it. -/
def Session.Reaches (session : Session σ) (h : Hosted) : Prop :=
  ∀ get s, (session.send get s).1 = .ok (h.respond get)

/-- **A session that keeps the GETs it sends**, the last one first. -/
def Session.recorded (session : Session σ) : Session (σ × List Get) where
  send get t :=
    let (result, s) := session.send get t.1
    (result, s, get :: t.2)
  touch use t := (session.touch use t.1, t.2)
  note event t := (session.note event t.1, t.2)

theorem Session.Reaches.recorded (hs : session.Reaches h) (get : Get) (t : σ × List Get) :
    session.recorded.send get t = (.ok (h.respond get), (session.send get t.1).2, get :: t.2) := by
  rw [← hs get t.1]
  rfl

/-- Small letters, character by character. -/
theorem toLower_eq (s : String) : s.toLower = String.ofList (s.toList.map Char.toLower) := by
  unfold String.toLower
  rw [← String.toList_inj, String.toList_map, String.toList_ofList]

theorem generation_ne_etag : ("X-Goog-Generation".toLower == etagHeader.toLower) = false := by
  rw [toLower_eq, toLower_eq]
  decide

theorem generation_eq_generation :
    ("X-Goog-Generation".toLower == generationHeader.toLower) = true := by
  rw [toLower_eq, toLower_eq]
  decide

theorem etag_ne_generation : (etagHeader.toLower == generationHeader.toLower) = false := by
  rw [toLower_eq, toLower_eq]
  decide

/-- The tag of an answer of a service, whatever its status and its body. -/
theorem etag?_headers (h : Hosted) (status : Int) (body : Except Fault (List UInt8)) :
    Response.etag? ⟨status, h.headers, body⟩ = h.held.etag := by
  have hetag : header? ⟨status, h.headers, body⟩ etagHeader = h.etag := by
    unfold header? Hosted.headers
    cases h.etag <;> cases h.generation <;> simp [generation_ne_etag]
  have hgeneration : header? ⟨status, h.headers, body⟩ generationHeader = h.generation := by
    unfold header? Hosted.headers
    cases h.etag <;> cases h.generation <;>
      simp [generation_eq_generation, etag_ne_generation]
  unfold Response.etag?
  rw [hetag, hgeneration]
  rfl

/-- **The range in the answer of a service** is that of the object. -/
theorem rangeOf_respond (h : Hosted) (get : Get) :
    ∃ answer, rangeOf get (h.respond get) = .ok answer
      ∧ answer.data = h.held.slice get.offset get.length ∧ answer.IsTagged h.held.etag := by
  unfold Hosted.respond
  split
  -- the whole object, of which the range is cut out
  · rw [rangeOf_of_success not_failed_ok rfl]
    exact ⟨_, rfl, rfl, .inl (etag?_headers h _ _)⟩
  · split
    -- nothing is in the range
    · rename_i hdrop
      refine ⟨⟨none, []⟩, rfl, ?_, .inr ⟨rfl, rfl⟩⟩
      unfold Held.slice
      rw [show h.held.data = h.data from rfl, hdrop, List.take_nil]
    -- the part of the object, which is no longer than asked for
    · rw [rangeOf_of_success not_failed_partial rfl]
      refine ⟨_, rfl, ?_, .inl (etag?_headers h _ _)⟩
      show ((h.data.drop get.offset).take get.length).take get.length = _
      rw [List.take_take, Nat.min_self]
      rfl

/-- With keys that can be sent there is a GET for every request. -/
theorem get_of_valid (client : Client) {request : RangeRequest} {headers : OptionHeaders}
    (hv : OptionHeaders.ofOptions request.options = .ok headers) :
    ∃ get, client.get request = .ok get := by
  unfold Client.get Client.headers
  rw [hv]
  exact ⟨_, rfl⟩

/-- The range that a GET asks for. -/
def Get.range (get : Get) : Nat × Nat := (get.offset, get.length)

/-- **A client that reaches a service presents its object.** -/
theorem presents_of_reaches (hs : session.Reaches h) (client : Client)
    {options : List ReadOption} {headers : OptionHeaders}
    (hv : OptionHeaders.ofOptions options = .ok headers) :
    (client.source session.recorded).Presents h.held options fun t => t.2.map Get.range where
  fetch request t _ ho := by
    obtain ⟨get, hget⟩ := get_of_valid client (ho.symm ▸ hv)
    obtain ⟨hoffset, hlength⟩ := range_of_get hget
    obtain ⟨answer, hrange, hdata, htag⟩ := rangeOf_respond h get
    have hfetch := (fetch_of_get hget t).trans (exchange_of_send (hs.recorded get _))
    rw [hrange] at hfetch
    refine ⟨answer, _, hfetch, ?_, htag, ?_⟩
    · rw [hdata, hoffset, hlength]
    · rw [← hoffset, ← hlength]
      split <;> rfl
  note _ _ := rfl

end Http

/-! ## The theorem -/

/-- **HTTP is as good as memory.** Let an object be behind two services, of
which one keeps to ranges and the other always sends the whole object, and let
it be held in memory too, with the tag that the headers say. Then a channel
opened with keys that can be sent does the same over all three, whatever is
done with it: the outcomes are the same, so are the channels on the way but for
the tag of the content fetched last, and so are the ranges asked for. -/
theorem http_as_memory {σ τ : Type} {data : List UInt8} {etag generation : Option String}
    {ranged : Http.Session σ} (hranged : ranged.Reaches ⟨data, etag, generation, true⟩)
    {whole : Http.Session τ} (hwhole : whole.Reaches ⟨data, etag, generation, false⟩)
    (client client' : Http.Client) {policy : RetryPolicy Fetched (σ × List Http.Get)}
    (hpolicy : policy.TakesAnswers) {policy' : RetryPolicy Fetched (τ × List Http.Get)}
    (hpolicy' : policy'.TakesAnswers) {policy'' : RetryPolicy Fetched (Unit × List LogEntry)}
    (hpolicy'' : policy''.TakesAnswers) {object : ObjectId} {options : List ReadOption}
    {headers : OptionHeaders} (hv : OptionHeaders.ofOptions options = .ok headers) {c : Channel}
    (hc : Channel.opened object options = .ok c) (ops : List Operation) (s : σ) (t : τ) :
    c.shown ((client.source ranged.recorded).retrying policy)
        (fun t => t.2.map Http.Get.range) ops (s, [])
      = c.shown ((Held.source ⟨data, (Http.given? etag).or generation⟩).logged.retrying policy'')
        (fun t => t.2.filterMap LogEntry.range?) ops ((), [])
      ∧ c.shown ((client'.source whole.recorded).retrying policy')
          (fun t => t.2.map Http.Get.range) ops (t, [])
        = c.shown ((Held.source ⟨data, (Http.given? etag).or generation⟩).logged.retrying policy'')
          (fun t => t.2.filterMap LogEntry.range?) ops ((), []) := by
  have hfresh := Channel.isFresh_of_opened hc
  have hmemory := (Held.presents (σ := Unit) ⟨data, (Http.given? etag).or generation⟩
    options).retrying hpolicy''
  have hover := (Http.presents_of_reaches hranged client hv).retrying hpolicy
  have hover' := (Http.presents_of_reaches hwhole client' hv).retrying hpolicy'
  exact ⟨Channel.shown_eq hover hmemory hfresh.options_eq hfresh.lastEtag_eq rfl ops,
    Channel.shown_eq hover' hmemory hfresh.options_eq hfresh.lastEtag_eq rfl ops⟩

/-- A session that has nothing but a service behind it. -/
def Http.Hosted.session (h : Http.Hosted) : Http.Session Unit where
  send get s := (.ok (h.respond get), s)
  touch _ s := s
  note _ s := s

/-- Ten bytes. -/
def tenBytes : List UInt8 := [65, 66, 67, 68, 69, 70, 71, 72, 73, 74]

/-- Reads at the start, past the end and across it. -/
def readsPastEnd : List Operation :=
  [.setChunkSize 4, .readInto 3, .seek (.int 12), .readInto 1, .seek (.int 8), .readInto 9]

theorem http_as_memory_sample :
    ∃ c, Channel.opened sampleId [⟨.rawStream, .bool true⟩] = .ok c
      ∧ (c.shown ((Http.sampleClient.source (Http.Hosted.session
            ⟨tenBytes, none, some "7", true⟩).recorded).retrying .standard)
          (fun t => t.2.map Http.Get.range) readsPastEnd ((), [])).2.2
        = [(8, 9), (12, 4), (0, 4)]
      ∧ (c.shown ((Http.sampleClient.source (Http.Hosted.session
            ⟨tenBytes, none, some "7", false⟩).recorded).retrying .standard)
          (fun t => t.2.map Http.Get.range) readsPastEnd ((), [])).2.2
        = [(8, 9), (12, 4), (0, 4)] := by
  have hranged : (Http.Hosted.session ⟨tenBytes, none, some "7", true⟩).Reaches _ :=
    fun _ _ => rfl
  have hwhole : (Http.Hosted.session ⟨tenBytes, none, some "7", false⟩).Reaches _ :=
    fun _ _ => rfl
  have hpolicy (σ : Type) : (RetryPolicy.standard : RetryPolicy Fetched σ).TakesAnswers :=
    fun _ => rfl
  have hc : Channel.opened sampleId [⟨.rawStream, .bool true⟩] = .ok _ := rfl
  obtain ⟨hranged, hwhole⟩ := http_as_memory hranged hwhole Http.sampleClient Http.sampleClient
    (hpolicy _) (hpolicy _) (hpolicy _) rfl hc readsPastEnd () ()
  refine ⟨_, hc, ?_, ?_⟩
  · rw [hranged]
    rfl
  · rw [hwhole]
    rfl

end RangeReader

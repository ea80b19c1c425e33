import RangeReader.Proofs.Base64
import RangeReader.Proofs.Finality
import RangeReader.Proofs.SentOptions

/-!
# Keys arrive intact

A key of the customer goes a long way before the service sees it: it is made a
text, written into a token and read from it, maybe more than once, decoded for its
digest, and sent as the text it was made. Nothing of this changes it. Decoding a
text gives the bytes it was made from, and a text is always read from a token as
itself, whatever the other options are.

A channel may carry several keys. All of them are decoded for every request, and
the last one is sent: so it is the last key of a channel that its requests have,
and those of every channel that takes up its read. A key before the last one is
carried along, but never sent.
-/

namespace RangeReader

open ReadOption

variable {options options' : List ReadOption}

/-! ## The headers of a key -/

/-- **The headers of a key**: the algorithm, the key and its digest, both in
base 64. -/
def keyHeaders (key : List UInt8) : List (String × Value) :=
  [("x-goog-encryption-algorithm", .text "AES256"),
    ("x-goog-encryption-key", .text (Text.Base64.encode key)),
    ("x-goog-encryption-key-sha256", .text (Text.Base64.encode (Sha256.digest key)))]

/-- Different keys have different headers. -/
theorem keyHeaders_injective : Function.Injective keyHeaders := by
  intro key key' h
  have hsent := (List.cons.inj (List.cons.inj h).2).1
  exact Text.Base64.encode_injective (Value.text.inj (congrArg Prod.snd hsent))

/-- Whether a header is one of a key. -/
def isKeyHeader (header : String × Value) : Bool :=
  ["x-goog-encryption-algorithm", "x-goog-encryption-key",
    "x-goog-encryption-key-sha256"].contains header.1

/-- **The text of a key is decoded as the key.** -/
theorem keyBytes_encode (key : List UInt8) :
    keyBytes (.text (Text.Base64.encode key)) = .ok key := by
  have hascii : (Text.Base64.encode key).toList.all (·.toNat < 0x80) = true := by
    rw [Text.Base64.toList_encode, List.all_eq_true]
    exact fun c hc => decide_eq_true (Text.Base64.isAscii_encodeChars key c hc)
  show (if (Text.Base64.encode key).toList.all (·.toNat < 0x80) then
    (Text.Base64.decode (Text.Base64.encode key).toList).mapError KeyFault.encoding else _) = _
  rw [if_pos hascii, Text.Base64.decode_encode]
  rfl

/-- A key is sent as its text, with its digest. -/
theorem sentKey_decryptionKey (key : List UInt8) :
    (decryptionKey (.bytes key)).sentKey
      = .ok ⟨.text (Text.Base64.encode key), Text.Base64.encode (Sha256.digest key)⟩ := by
  show (keyBytes (.text (Text.Base64.encode key))).map _ = _
  rw [keyBytes_encode]
  rfl

/-- What can be sent as a key is a text or a byte string. -/
theorem isString_of_sentKey {o : ReadOption} {sent : SentKey} (h : o.sentKey = .ok sent) :
    o.value.IsString := by
  unfold sentKey at h
  cases hvalue : o.value with
  | text s => exact .inl ⟨s, rfl⟩
  | bytes b => exact .inr ⟨b, rfl⟩
  | _ =>
    rw [hvalue] at h
    cases h

/-- There are headers if all keys can be sent. -/
theorem exists_ofOptions_iff :
    (∃ headers, OptionHeaders.ofOptions options = .ok headers)
      ↔ ∃ keys, (ofKind .customerKey options).mapM sentKey = .ok keys := by
  rw [OptionHeaders.ofOptions_eq]
  cases (ofKind .customerKey options).mapM sentKey with
  | error fault => exact ⟨fun ⟨_, h⟩ => (nomatch h), fun ⟨_, h⟩ => (nomatch h)⟩
  | ok keys => exact ⟨fun _ => ⟨_, rfl⟩, fun _ => ⟨_, rfl⟩⟩

namespace Http

variable {client : Client} {request : RangeRequest} {headers : List (String × Value)}
variable {key : List UInt8}

/-- **The headers of the last key are in a request**, and those of no other key. -/
theorem Client.keyHeaders_of_lastOf (h : client.headers request = .ok headers)
    (hlast : lastOf .customerKey request.options = some (decryptionKey (.bytes key))) :
    headers.filter isKeyHeader = keyHeaders key := by
  obtain ⟨keys, hkeys, rfl⟩ := headers_eq_ok h
  have hsent := getLast?_of_mapM_sentKey hkeys
  rw [show (ofKind .customerKey request.options).getLast? = _ from hlast] at hsent
  obtain ⟨sent, hsome, hsame⟩ := Option.map_eq_some_iff.mp hsent.symm
  rw [sentKey_decryptionKey] at hsame
  cases hsame
  rw [hsome]
  cases client.token <;> cases wantsRaw request.options <;>
    simp [OptionHeaders.toList, isKeyHeader, keyHeaders]

/-- The headers of a GET are those of its request. -/
theorem Client.headers_of_get {get : Get} (h : client.get request = .ok get) :
    client.headers request = .ok get.headers := by
  cases hheaders : client.headers request with
  | error fault =>
    unfold Client.get at h
    rw [hheaders] at h
    cases h
  | ok headers =>
    rw [get_of_headers hheaders] at h
    cases h
    rfl

/-- **A fetch sends the headers of its last key**, if all keys can be sent. -/
theorem Client.sends_keyHeaders {σ : Type} (client : Client) (request : RangeRequest)
    (session : Session σ) (t : σ × List Get)
    (hvalid : ∃ headers, OptionHeaders.ofOptions request.options = .ok headers)
    (hlast : lastOf .customerKey request.options = some (decryptionKey (.bytes key))) :
    ∃ get, (client.fetch session.recorded request t).2.2 = get :: t.2
      ∧ get.headers.filter isKeyHeader = keyHeaders key := by
  obtain ⟨headers, hheaders⟩ := hvalid
  obtain ⟨get, hget⟩ := get_of_valid client hheaders
  refine ⟨get, ?_, client.keyHeaders_of_lastOf (headers_of_get hget) hlast⟩
  rw [fetch_of_get hget, record_exchange]
  rfl

/-- A fetch sends nothing if a key cannot be sent. -/
theorem Client.sends_nothing {σ : Type} (client : Client) (request : RangeRequest)
    (session : Session σ) (t : σ × List Get) {fault : KeyFault}
    (hinvalid : OptionHeaders.ofOptions request.options = .error fault) :
    (client.fetch session.recorded request t).2.2 = t.2 := by
  have hget : client.get request = .error fault := by
    unfold Client.get Client.headers
    rw [hinvalid]
    rfl
  rw [fetch_of_badKey hget]
  rfl

end Http

/-! ## Keys through a token -/

/-- The last key arrives. -/
theorem lastOf_of_arrives [Nesting] {key : List UInt8} (h : List.Forall₂ Arrives options options')
    (hlast : lastOf .customerKey options = some (decryptionKey (.bytes key))) :
    lastOf .customerKey options' = some (decryptionKey (.bytes key)) := by
  obtain ⟨o, ho, harrives⟩ := lastOf_of_forall₂ (fun _ _ h => h.kind_eq) h hlast
  rw [ho, harrives.string (.inl ⟨_, rfl⟩)]

/-- Keys that can be sent can be sent one by one. -/
theorem sentKey_of_mapM {keys : List SentKey} (h : options.mapM sentKey = .ok keys) :
    ∀ o ∈ options, ∃ sent, o.sentKey = .ok sent := by
  have hsent := (mapM_eq_ok_iff.mp h).imp fun o sent ho =>
    And.intro (show ∃ sent, o.sentKey = .ok sent from ⟨sent, ho⟩) ho
  exact ((List.forall₂_and_left _ _).mp hsent).1

/-- **Keys that can be sent arrive.** -/
theorem keys_of_arrives [Nesting] {keys : List SentKey} (h : List.Forall₂ Arrives options options')
    (hkeys : (ofKind .customerKey options).mapM sentKey = .ok keys) :
    ofKind .customerKey options' = ofKind .customerKey options := by
  refine eq_of_arrives (forall₂_ofKind (fun _ _ h => h.kind_eq) h _) fun o ho => .inr ?_
  obtain ⟨sent, hsent⟩ := sentKey_of_mapM hkeys o ho
  exact isString_of_sentKey hsent

/-! ## The theorem -/

/-- **Keys of the customer arrive intact.**

* The option of a key is that of its base 64 text.
* It gives three headers, in which the key and its digest are decoded as themselves.
* Let it be the last key of a channel. Every GET that the channel sends, or that is
  sent in taking up its read from a token, over any clients and however often they
  try, has these three headers for a key. And if all keys of the channel can be sent,
  every fetch with the options of such a channel sends a GET. -/
theorem customer_keys_arrive [Nesting] (key : List UInt8) :
    decryptionKey (.bytes key) = decryptionKey (.text (Text.Base64.encode key))
      ∧ (∃ headers, OptionHeaders.ofOptions [decryptionKey (.bytes key)] = .ok headers
        ∧ headers.toList = keyHeaders key)
      ∧ Text.Base64.decode (Text.Base64.encode key).toList = .ok key
      ∧ Text.Base64.decode (Text.Base64.encode (Sha256.digest key)).toList
        = .ok (Sha256.digest key)
      ∧ ∀ {c : Channel}, lastOf .customerKey c.options = some (decryptionKey (.bytes key)) →
        ∀ {σ : Type} {source : Source (σ × List Http.Get)} {moves : List (Move (σ × List Http.Get))}
          {s t : σ} {outcomes : List Outcome} {last : Channel} {sent : List Http.Get},
          source.UpToRetries Source.IsRecorded →
          (∀ next, .handOver next ∈ moves → next.UpToRetries Source.IsRecorded) →
          Channel.performMoves source moves c (s, []) = .ok (outcomes, last, t, sent) →
          (∀ get ∈ sent, get.headers.filter isKeyHeader = keyHeaders key)
            ∧ ((∃ headers, OptionHeaders.ofOptions c.options = .ok headers) →
              ∀ (client : Http.Client) {τ : Type} (session : Http.Session τ)
                (request : RangeRequest) (u : τ × List Http.Get), request.options = last.options →
                ∃ get, (client.fetch session.recorded request u).2.2 = get :: u.2
                  ∧ get.headers.filter isKeyHeader = keyHeaders key) := by
  refine ⟨rfl, ?_, Text.Base64.decode_encode key, Text.Base64.decode_encode _, ?_⟩
  · refine ⟨⟨some ⟨.text (Text.Base64.encode key), Text.Base64.encode (Sha256.digest key)⟩, false⟩,
      ?_, rfl⟩
    rw [OptionHeaders.ofOptions_eq]
    show ([decryptionKey (.bytes key)].mapM sentKey).map _ = _
    rw [List.mapM_cons, sentKey_decryptionKey]
    rfl
  · intro c hlast σ source moves s t outcomes last sent hsource hmoves hrun
    -- what is known of the options of all channels of the chain, and of all GETs
    have hchain {Q : List ReadOption → Prop} (hQ : Q c.options)
        (harrives : ∀ options options', Q options → List.Forall₂ Arrives options options' →
          Q options') : Q last.options ∧ SentWith Q sent := by
      have hkeeps {source : Source (σ × List Http.Get)}
          (h : source.UpToRetries Source.IsRecorded) : source.Keeps Q fun t => SentWith Q t.2 :=
        h.keeps fun _ hbase => hbase.keeps
      have hnone : SentWith Q [] := fun _ hmem => nomatch hmem
      refine Channel.performMoves_keeps (P := fun t : σ × List Http.Get => SentWith Q t.2)
        (hkeeps hsource) (fun next hnext => ⟨hkeeps (hmoves next hnext), fun c c' hc hover => ?_⟩)
        hQ hnone hrun
      exact harrives _ _ hc (Channel.arrives_of_handedOver hover)
    obtain ⟨hlast', hsent⟩ := hchain hlast fun _ _ h harrives => lastOf_of_arrives harrives h
    refine ⟨fun get hget => ?_, fun hvalid client τ session request u hrequest => ?_⟩
    · obtain ⟨client, request, hrequest, hoptions⟩ := hsent get hget
      exact Http.Client.keyHeaders_of_lastOf (Http.Client.headers_of_get hrequest) hoptions
    · obtain ⟨keys, hkeys⟩ := exists_ofOptions_iff.mp hvalid
      obtain ⟨hkeys', -⟩ := hchain (Q := fun options =>
        (ofKind .customerKey options).mapM sentKey = .ok keys) hkeys
        fun _ _ h harrives => keys_of_arrives harrives h ▸ h
      rw [← hrequest] at hlast' hkeys'
      exact client.sends_keyHeaders request session u (exists_ofOptions_iff.mpr ⟨keys, hkeys'⟩)
        hlast'

/-- A key that is followed by another one. -/
def sampleKeys (second : Value) : List ReadOption :=
  [decryptionKey (.bytes [1]), ⟨.customerKey, second⟩]

/-- A client with a record of what it sends. -/
def sampleRecorded : Source (Unit × List Http.Get) :=
  Http.sampleClient.source (Http.Hosted.session ⟨tenBytes, none, some "7", true⟩).recorded

theorem opened_sampleKeys (second : Value) :
    ∃ c, Channel.opened sampleId (sampleKeys second) = .ok c ∧ c.options = sampleKeys second :=
  ⟨_, rfl, rfl⟩

/-- A channel with two short keys is handed over. -/
theorem handedOver_sampleKeys {second : String} (h : (Text.Utf8.encode second).length < sizeLimit)
    {c : Channel} (hc : Channel.opened sampleId (sampleKeys (.text second)) = .ok c) :
    c.handedOver = .ok c.resumed := by
  have hfresh := Channel.isFresh_of_opened hc
  rw [← hfresh.object_eq, ← hfresh.options_eq] at hc
  refine Channel.handedOver_eq hc rfl ?_ (Channel.Bounded.opened hc) ?_
  · rw [hfresh.object_eq, hfresh.options_eq]
    refine ⟨by decide, by decide, .inl rfl, show 2 < sizeLimit by decide, ?_⟩
    show ∀ o ∈ sampleKeys (.text second), o.value.Portable (996 + 1)
    have hfirst : (Text.Utf8.encode (Text.Base64.encode [1])).length < sizeLimit := by decide
    simp [sampleKeys, decryptionKey, Value.Portable, hfirst, h]
  · intro tag htag
    rw [hfresh.lastEtag_eq] at htag
    cases htag

theorem customer_keys_arrive_sample :
    ∃ c outcome last sent, Channel.opened sampleId (sampleKeys (.text (Text.Base64.encode [2])))
        = .ok c
      ∧ Channel.performMoves sampleRecorded [.handOver sampleRecorded, .operate (.readInto 1)] c
          ((), []) = .ok ([outcome], last, (), sent)
      ∧ sent.length = 1
      ∧ ∀ get ∈ sent, get.headers.filter isKeyHeader = keyHeaders [2] := by
  obtain ⟨-, -, -, -, hchain⟩ := customer_keys_arrive [2]
  obtain ⟨c, hc, hoptions⟩ := opened_sampleKeys (.text (Text.Base64.encode [2]))
  have hsource : sampleRecorded.UpToRetries Source.IsRecorded := .plain ⟨_, _, rfl⟩
  obtain ⟨outcome, last, sent, hrun, hlength⟩ : ∃ outcome last sent,
      Channel.performMoves sampleRecorded [.handOver sampleRecorded, .operate (.readInto 1)] c
        ((), []) = .ok ([outcome], last, (), sent) ∧ sent.length = 1 := by
    rw [Channel.performMoves_handOver, handedOver_sampleKeys (by decide) hc, Checkpoint.ok_bind]
    cases hc
    exact ⟨_, _, _, rfl, rfl⟩
  obtain ⟨hsent, -⟩ := hchain (c := c) (hoptions ▸ rfl) hsource (by simp [hsource]) hrun
  exact ⟨c, outcome, last, sent, hc, hrun, hlength, hsent⟩

/-- **A key before the last one is not sent.** A channel carries the option of a
key, is handed over by a token, and never sends the headers of that key: where
another key follows it sends those of the other one, and where something follows
that is no key it sends nothing. -/
theorem key_before_last_not_sent :
    (∃ c, Channel.opened sampleId (sampleKeys (.text (Text.Base64.encode [2]))) = .ok c
        ∧ decryptionKey (.bytes [1]) ∈ c.options ∧ c.handedOver = .ok c.resumed
        ∧ ∀ (client : Http.Client) (session : Http.Session Unit) (n : Nat),
          ∃ get, (client.fetch session.recorded (c.resumed.request n) ((), [])).2.2 = [get]
            ∧ get.headers.filter isKeyHeader ≠ keyHeaders [1])
      ∧ ∃ c, Channel.opened sampleId (sampleKeys (.text "A")) = .ok c
        ∧ decryptionKey (.bytes [1]) ∈ c.options ∧ c.handedOver = .ok c.resumed
        ∧ ∀ (client : Http.Client) (session : Http.Session Unit) (n : Nat),
          (client.fetch session.recorded (c.resumed.request n) ((), [])).2.2 = [] := by
  refine ⟨?_, ?_⟩
  · obtain ⟨c, hc, hoptions⟩ := opened_sampleKeys (.text (Text.Base64.encode [2]))
    refine ⟨c, hc, hoptions ▸ List.mem_cons_self, handedOver_sampleKeys (by decide) hc,
      fun client session n => ?_⟩
    have hkeys : ∃ keys, [decryptionKey (.bytes [1]), decryptionKey (.bytes [2])].mapM sentKey
        = .ok keys := by
      rw [List.mapM_cons, sentKey_decryptionKey, List.mapM_cons, sentKey_decryptionKey]
      exact ⟨_, rfl⟩
    have hlast : lastOf .customerKey c.options = some (decryptionKey (.bytes [2])) :=
      hoptions ▸ rfl
    have hvalid : ∃ headers, OptionHeaders.ofOptions c.options = .ok headers :=
      hoptions ▸ exists_ofOptions_iff.mpr hkeys
    obtain ⟨get, hsent, hheaders⟩ := client.sends_keyHeaders (c.resumed.request n) session
      ((), []) hvalid hlast
    refine ⟨get, hsent, fun hsame => ?_⟩
    exact absurd (keyHeaders_injective (hheaders.symm.trans hsame)) (by decide)
  · obtain ⟨c, hc, hoptions⟩ := opened_sampleKeys (.text "A")
    refine ⟨c, hc, hoptions ▸ List.mem_cons_self, handedOver_sampleKeys (by decide) hc,
      fun client session n => ?_⟩
    have hinvalid : ∃ fault, OptionHeaders.ofOptions c.options = .error fault := by
      rw [hoptions, OptionHeaders.ofOptions_eq]
      show ∃ fault, ([decryptionKey (.bytes [1]), decryptionKey (.text "A")].mapM sentKey).map _
        = .error fault
      rw [List.mapM_cons, sentKey_decryptionKey]
      exact ⟨_, rfl⟩
    obtain ⟨fault, hfault⟩ := hinvalid
    exact client.sends_nothing (c.resumed.request n) session ((), []) hfault

end RangeReader

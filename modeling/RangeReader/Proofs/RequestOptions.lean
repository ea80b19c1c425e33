import Mathlib.Data.List.Count
import Mathlib.Data.List.Induction
import RangeReader.Proofs.Coherence
import RangeReader.Proofs.Reissue

/-!
# A request depends on its options kind by kind

The options of a read are a list, and a caller may repeat them and give them in
any order. Three passes go over the list for a request: one for the query, one
for the headers, and one for the form in which the body is read. Each of them has
its own rule for what is repeated. A later condition replaces an earlier one; a
later key replaces an earlier one too, but only after both were found to be keys;
and one raw option that is set is enough.

All three rules look at one kind at a time, and that is said by an equation for
each pass: the query is made from the last option of every kind
(`QueryParams.ofOptions_eq`), the headers from all the keys and all the raw
options (`OptionHeaders.ofOptions_eq`). A fault is no exception, as only keys have
any: the first key that cannot be sent is the same one wherever the other options
are. Options of different kinds may therefore change places.
-/

namespace RangeReader

namespace ReadOption

variable {kind : OptionKind} {options other : List ReadOption} {o : ReadOption}

/-! ## The options of a kind -/

/-- **The options of one kind**, in order. -/
def ofKind (kind : OptionKind) (options : List ReadOption) : List ReadOption :=
  options.filter (·.kind = kind)

/-- **The option of a kind that counts**, which is the last one. -/
def lastOf (kind : OptionKind) (options : List ReadOption) : Option ReadOption :=
  (ofKind kind options).getLast?

/-- **Lists with the same options of every kind**, in the same order. What is left
open is how the kinds are mixed. -/
def SameByKind (options other : List ReadOption) : Prop :=
  ∀ kind, ofKind kind options = ofKind kind other

theorem ofKind_concat (kind : OptionKind) (options : List ReadOption) (o : ReadOption) :
    ofKind kind (options ++ [o])
      = if o.kind = kind then ofKind kind options ++ [o] else ofKind kind options := by
  unfold ofKind
  rw [List.filter_append]
  split <;> rename_i hkind <;> simp [hkind]

theorem lastOf_concat (kind : OptionKind) (options : List ReadOption) (o : ReadOption) :
    lastOf kind (options ++ [o]) = if o.kind = kind then some o else lastOf kind options := by
  unfold lastOf
  rw [ofKind_concat]
  split
  · rw [List.getLast?_concat]
  · rfl

/-- The option of a kind is of that kind. -/
theorem kind_of_lastOf (h : lastOf kind options = some o) : o.kind = kind :=
  of_decide_eq_true (List.mem_filter.mp (List.mem_of_getLast? h)).2

open Classical in
/-- **Such lists are reorderings of each other.** -/
theorem SameByKind.perm (h : SameByKind options other) : options.Perm other := by
  refine List.perm_iff_count.mpr fun o => ?_
  have hcount (xs : List ReadOption) : List.count o (ofKind o.kind xs) = List.count o xs :=
    List.count_filter (decide_eq_true rfl)
  rw [← hcount options, h o.kind, hcount other]

/-- Neighbours of different kinds may change places. -/
theorem sameByKind_swap {a b : ReadOption} (h : a.kind ≠ b.kind) (before after : List ReadOption) :
    SameByKind (before ++ a :: b :: after) (before ++ b :: a :: after) := by
  intro kind
  unfold ofKind
  rw [List.filter_append, List.filter_append]
  by_cases ha : a.kind = kind
  · have hb : b.kind ≠ kind := fun hb => h (ha.trans hb.symm)
    simp [ha, hb]
  · simp [List.filter_cons, ha]

theorem SameByKind.lastOf_eq (h : SameByKind options other) (kind : OptionKind) :
    lastOf kind options = lastOf kind other :=
  congrArg List.getLast? (h kind)

/-- The raw options decide whether the stored bytes are wanted. -/
theorem wantsRaw_eq (options : List ReadOption) :
    wantsRaw options = (ofKind .rawStream options).any (·.value.truthy) := by
  unfold wantsRaw ofKind
  rw [List.any_filter]
  rfl

end ReadOption

open ReadOption

variable {options other : List ReadOption}

/-! ## The query -/

/-- **What an option adds to the query**: a condition its value as text, a project
its value as it is. -/
def ReadOption.parameter? (o : ReadOption) : Option Value :=
  if o.kind.isCondition then some (.text o.value.plain)
  else if o.kind = .userProject then some o.value
  else none

namespace QueryParams

/-- **The query is made from the last option of every kind.** -/
theorem ofOptions_eq (options : List ReadOption) :
    ofOptions options = {
      generationMatch := (lastOf .generationMatch options).map (·.value.plain)
      generationNotMatch := (lastOf .generationNotMatch options).map (·.value.plain)
      metagenerationMatch := (lastOf .metagenerationMatch options).map (·.value.plain)
      metagenerationNotMatch := (lastOf .metagenerationNotMatch options).map (·.value.plain)
      userProject := (lastOf .userProject options).map (·.value) } := by
  induction options using List.reverseRecOn with
  | nil => rfl
  | append_singleton options o ih =>
    have hstep : ofOptions (options ++ [o]) = (ofOptions options).add o := by
      unfold ofOptions
      rw [List.foldl_append]
      rfl
    rw [hstep, ih]
    unfold add
    cases hkind : o.kind <;> simp [lastOf_concat, hkind]

/-- The parameter of a kind. -/
def get? (q : QueryParams) : OptionKind → Option Value
  | .generationMatch => q.generationMatch.map .text
  | .generationNotMatch => q.generationNotMatch.map .text
  | .metagenerationMatch => q.metagenerationMatch.map .text
  | .metagenerationNotMatch => q.metagenerationNotMatch.map .text
  | .userProject => q.userProject
  | .customerKey => none
  | .rawStream => none

/-- The parameters by name are those of the kinds. -/
theorem mem_toList (q : QueryParams) (kind : OptionKind) (v : Value) :
    (kind.wireName, v) ∈ q.toList ↔ q.get? kind = some v := by
  unfold toList
  rw [List.mem_filterMap]
  cases kind <;> simp [OptionKind.wireName, get?]

/-- The parameter of a kind is that of its last option. -/
theorem get?_ofOptions (options : List ReadOption) (kind : OptionKind) :
    (ofOptions options).get? kind = (lastOf kind options).bind parameter? := by
  rw [ofOptions_eq]
  cases hlast : lastOf kind options with
  | none => cases kind <;> simp [get?, hlast]
  | some o =>
    have hkind := kind_of_lastOf hlast
    cases kind <;> simp [get?, hlast, parameter?, hkind, OptionKind.isCondition]

end QueryParams

/-- **What is under the name of a kind in a query** is what its last option adds. -/
theorem Http.Client.mem_params (request : RangeRequest) (kind : OptionKind) (v : Value) :
    (kind.wireName, v) ∈ params request
      ↔ (lastOf kind request.options).bind parameter? = some v := by
  rw [← QueryParams.get?_ofOptions, ← QueryParams.mem_toList]
  unfold params
  cases request.target.generation <;> cases kind <;> simp [OptionKind.wireName]

/-! ## The headers -/

/-- The key of an option as it is sent. -/
def ReadOption.sentKey (o : ReadOption) : Except KeyFault SentKey :=
  (keyBytes o.value).map fun bytes => ⟨o.value, Text.Base64.encode (Sha256.digest bytes)⟩

/-- A key is sent as it was given. -/
theorem ReadOption.key_of_sentKey {o : ReadOption} {sent : SentKey} (h : o.sentKey = .ok sent) :
    sent.key = o.value := by
  unfold sentKey at h
  cases hbytes : keyBytes o.value with
  | error fault =>
    rw [hbytes] at h
    cases h
  | ok bytes =>
    rw [hbytes] at h
    cases h
    rfl

/-- One key more. -/
theorem ReadOption.mapM_sentKey_concat (options : List ReadOption) (o : ReadOption) :
    (options ++ [o]).mapM sentKey
      = options.mapM sentKey >>= fun keys => o.sentKey.map (keys ++ [·]) := by
  rw [List.mapM_append]
  cases options.mapM sentKey with
  | error fault => rfl
  | ok keys =>
    rw [List.mapM_cons, List.mapM_nil]
    cases o.sentKey <;> rfl

/-- The last key that is sent is that of the last option. -/
theorem ReadOption.getLast?_of_mapM_sentKey {keys : List SentKey}
    (h : options.mapM sentKey = .ok keys) :
    options.getLast?.map sentKey = keys.getLast?.map .ok := by
  cases options using List.reverseRecOn with
  | nil =>
    cases h
    rfl
  | append_singleton options o _ =>
    rw [mapM_sentKey_concat] at h
    obtain ⟨before, -, h⟩ := eq_ok_of_bind h
    cases hkey : o.sentKey with
    | error fault =>
      rw [hkey] at h
      cases h
    | ok key =>
      rw [hkey] at h
      cases h
      rw [List.getLast?_concat, List.getLast?_concat]
      exact congrArg some hkey

namespace OptionHeaders

/-- A key takes the place of the one before, if it is one. -/
theorem add_key (h : OptionHeaders) {o : ReadOption} (hkind : o.kind = .customerKey) :
    h.add o = o.sentKey.map fun key => { h with key := some key } := by
  unfold add sentKey
  rw [hkind]
  cases keyBytes o.value <;> rfl

/-- An option that is no key is never refused. -/
theorem add_other (h : OptionHeaders) {o : ReadOption} (hkind : o.kind ≠ .customerKey) :
    h.add o
      = .ok { h with acceptGzip := h.acceptGzip || (o.kind == .rawStream && o.value.truthy) } := by
  unfold add
  cases hcase : o.kind with
  | customerKey => exact absurd hcase hkind
  | rawStream => rfl
  | _ =>
    show Except.ok h = .ok { h with acceptGzip := h.acceptGzip || false }
    rw [Bool.or_false]

/-- **The headers are made from the keys and the raw options.** All keys are
looked at, in order, and the last one is sent. -/
theorem ofOptions_eq (options : List ReadOption) :
    ofOptions options = ((ofKind .customerKey options).mapM sentKey).map
      fun keys => ⟨keys.getLast?, wantsRaw options⟩ := by
  induction options using List.reverseRecOn with
  | nil => rfl
  | append_singleton options o ih =>
    have hstep : ofOptions (options ++ [o]) = ofOptions options >>= fun h => h.add o := by
      unfold ofOptions
      rw [List.foldlM_append]
      simp only [List.foldlM_cons, List.foldlM_nil, bind_pure]
    have hraw : wantsRaw (options ++ [o])
        = (wantsRaw options || (o.kind == .rawStream && o.value.truthy)) := by
      unfold wantsRaw
      rw [List.any_append, List.any_cons, List.any_nil, Bool.or_false]
    rw [hstep, ih, ofKind_concat, hraw]
    by_cases hkind : o.kind = .customerKey
    · rw [if_pos hkind, mapM_sentKey_concat, hkind]
      cases (ofKind .customerKey options).mapM sentKey with
      | error fault => rfl
      | ok keys =>
        show add ⟨keys.getLast?, wantsRaw options⟩ o = _
        rw [add_key _ hkind]
        cases o.sentKey with
        | error fault => rfl
        | ok key =>
          show Except.ok (OptionHeaders.mk (some key) (wantsRaw options))
            = .ok ⟨(keys ++ [key]).getLast?, wantsRaw options || false⟩
          rw [List.getLast?_concat, Bool.or_false]
    · rw [if_neg hkind]
      cases (ofKind .customerKey options).mapM sentKey with
      | error fault => rfl
      | ok keys => exact add_other _ hkind

/-- The header of a key is there with a key. -/
theorem key_mem_toList (h : OptionHeaders) (v : Value) :
    ("x-goog-encryption-key", v) ∈ h.toList ↔ h.key.map SentKey.key = some v := by
  obtain ⟨key, acceptGzip⟩ := h
  cases key <;> cases acceptGzip <;> simp [toList, eq_comm]

/-- Compressed content is accepted where the stored bytes are wanted. -/
theorem gzip_mem_toList (h : OptionHeaders) (v : Value) :
    ("Accept-Encoding", v) ∈ h.toList ↔ h.acceptGzip = true ∧ v = .text "gzip" := by
  obtain ⟨key, acceptGzip⟩ := h
  cases key <;> cases acceptGzip <;> simp [toList]

end OptionHeaders

namespace Http

variable {client : Client} {request : RangeRequest} {headers : List (String × Value)}

/-- The headers of a request that its options have a part in. -/
theorem Client.headers_eq_ok (h : client.headers request = .ok headers) :
    ∃ keys, (ofKind .customerKey request.options).mapM sentKey = .ok keys
      ∧ headers = OptionHeaders.toList ⟨keys.getLast?, wantsRaw request.options⟩
        ++ [("User-Agent", .text ("blobchannel/python/" ++ version)),
          ("Range", .text ("bytes=" ++ toString request.offset ++ "-"
            ++ toString (request.offset + request.length - 1)))]
        ++ client.token.elim [] fun token => [("Authorization", .text ("Bearer " ++ token))] := by
  unfold Client.headers at h
  rw [OptionHeaders.ofOptions_eq] at h
  cases hkeys : (ofKind .customerKey request.options).mapM sentKey with
  | error fault =>
    rw [hkeys] at h
    cases h
  | ok keys =>
    rw [hkeys] at h
    cases h
    exact ⟨keys, rfl, rfl⟩

/-- **The key of a request** is that of its last key. -/
theorem Client.key_mem_headers (h : client.headers request = .ok headers) (v : Value) :
    ("x-goog-encryption-key", v) ∈ headers
      ↔ (lastOf .customerKey request.options).map (·.value) = some v := by
  obtain ⟨keys, hkeys, rfl⟩ := headers_eq_ok h
  have hlast := getLast?_of_mapM_sentKey hkeys
  have hvalue : (lastOf .customerKey request.options).map (·.value)
      = keys.getLast?.map SentKey.key := by
    unfold lastOf
    cases hkey : keys.getLast? with
    | none =>
      rw [hkey] at hlast
      rw [Option.map_eq_none_iff.mp hlast]
      rfl
    | some sent =>
      rw [hkey] at hlast
      obtain ⟨o, ho, hsent⟩ := Option.map_eq_some_iff.mp hlast
      rw [ho]
      exact congrArg some (key_of_sentKey hsent).symm
  rw [hvalue, ← OptionHeaders.key_mem_toList ⟨keys.getLast?, wantsRaw request.options⟩]
  cases client.token <;> simp

/-- **Compressed content is accepted** where the stored bytes are wanted. -/
theorem Client.gzip_mem_headers (h : client.headers request = .ok headers) (v : Value) :
    ("Accept-Encoding", v) ∈ headers ↔ wantsRaw request.options = true ∧ v = .text "gzip" := by
  obtain ⟨keys, -, rfl⟩ := headers_eq_ok h
  rw [← OptionHeaders.gzip_mem_toList ⟨keys.getLast?, wantsRaw request.options⟩]
  cases client.token <;> simp

/-- A GET is what its parts are. -/
theorem Client.get_of_headers (h : client.headers request = .ok headers) :
    client.get request = .ok {
      url := client.objectUrl request.target
      params := params request
      headers := headers
      timeout := client.timeout
      stream := wantsRaw request.options
      offset := request.offset
      length := request.length } := by
  unfold Client.get
  rw [h]
  rfl

/-- **A body of a success is read as the GET says.** -/
theorem exchange_of_success {σ : Type} {session : Session σ} {get : Get} {r : Response} {s s' : σ}
    (hsend : session.send get s = (.ok r, s')) (hr : failureKind? r.status = none) :
    (exchange session get s).2 = session.touch (if get.stream then .stored else .content) s' := by
  have hstatus : r.status ≠ statusNoRange := by
    intro h
    rw [h] at hr
    cases hr
  rw [exchange_of_send hsend, if_neg hstatus]
  unfold bodyUse
  rw [hr]
  rfl

end Http

/-! ## The theorem -/

/-- **A request depends on its options kind by kind.** Options that are mixed in
another way, but with those of every kind in the same order, make the same request:
the same query, the same headers or the same fault, the same flag, and so the same
fetch. Of the options of a kind the last one is in the query, and of the keys the
last one is in the headers. And where there are headers, one flag decides all of
this: whether the GET is streamed, whether compressed content is accepted, and
whether the body of a success is read as it is stored. -/
theorem requests_by_kind (client : Http.Client) (request : RangeRequest) :
    (∀ other, SameByKind request.options other →
      Http.Client.params { request with options := other } = Http.Client.params request
        ∧ client.headers { request with options := other } = client.headers request
        ∧ wantsRaw other = wantsRaw request.options
        ∧ client.get { request with options := other } = client.get request
        ∧ ∀ {σ : Type} (session : Http.Session σ) (s : σ),
          client.fetch session { request with options := other } s
            = client.fetch session request s)
      ∧ (∀ kind v, (kind.wireName, v) ∈ Http.Client.params request
        ↔ (lastOf kind request.options).bind parameter? = some v)
      ∧ ∀ headers, client.headers request = .ok headers →
        (∀ v, ("x-goog-encryption-key", v) ∈ headers
          ↔ (lastOf .customerKey request.options).map (·.value) = some v)
        ∧ ∃ get, client.get request = .ok get ∧ get.params = Http.Client.params request
          ∧ get.headers = headers ∧ get.stream = wantsRaw request.options
          ∧ (∀ v, ("Accept-Encoding", v) ∈ headers ↔ get.stream = true ∧ v = .text "gzip")
          ∧ ∀ {σ : Type} {session : Http.Session σ} {s s' : σ} {r : Http.Response},
            session.send get (session.note (.requesting (client.objectUrl request.target)
              request.offset (request.offset + request.length - 1)) s) = (.ok r, s') →
            Http.failureKind? r.status = none →
            (client.fetch session request s).2
              = session.touch (if get.stream then .stored else .content) s' := by
  refine ⟨fun other h => ?_, Http.Client.mem_params request, fun headers hheaders => ?_⟩
  · have hparams : Http.Client.params { request with options := other }
        = Http.Client.params request := by
      unfold Http.Client.params
      rw [QueryParams.ofOptions_eq, QueryParams.ofOptions_eq]
      simp only [h.lastOf_eq]
    have hraw : wantsRaw other = wantsRaw request.options := by
      rw [wantsRaw_eq, wantsRaw_eq, h]
    have hheaders : client.headers { request with options := other } = client.headers request := by
      unfold Http.Client.headers
      rw [OptionHeaders.ofOptions_eq, OptionHeaders.ofOptions_eq, hraw, h]
    have hget : client.get { request with options := other } = client.get request := by
      unfold Http.Client.get
      rw [hheaders, hparams, hraw]
    refine ⟨hparams, hheaders, hraw, hget, fun session s => ?_⟩
    unfold Http.Client.fetch
    rw [hget]
  · refine ⟨Http.Client.key_mem_headers hheaders, _, Http.Client.get_of_headers hheaders, rfl, rfl,
      rfl, Http.Client.gzip_mem_headers hheaders, fun hsend hr => ?_⟩
    rw [Http.fetch_of_get (Http.Client.get_of_headers hheaders)]
    exact Http.exchange_of_success hsend hr

end RangeReader

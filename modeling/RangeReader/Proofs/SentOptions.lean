import Mathlib.Data.List.Forall2
import RangeReader.Proofs.OverHttp
import RangeReader.Proofs.RequestOptions
import RangeReader.Proofs.TokenRoom

/-!
# Requests have the options of their reader

The options of a channel are set when it is opened, and every request it makes
has them. That a channel taken up elsewhere has them too is a matter of the
token: each option is read with its kind, and with its value if that is one that
can travel (`Channel.arrives_of_handedOver`). Texts and byte strings always are,
as the writer has asked for their size.

So what is true of the options of the first channel of a chain, and is kept where
options arrive, is true of all requests that the chain makes, whatever the sources
are and however often they try (`Channel.performMoves_keeps`). The sources take
part with what they know: `Source.Keeps` says that a property of the state of a
source outlives every request with such options. A log of requests has one, and so
does a record of GETs.
-/

namespace RangeReader

/-- **Going over a list** succeeds if it does for each of its members. -/
theorem mapM_eq_ok_iff {ε α β : Type} {f : α → Except ε β} {xs : List α} {ys : List β} :
    xs.mapM f = .ok ys ↔ List.Forall₂ (fun x y => f x = .ok y) xs ys := by
  induction xs generalizing ys with
  | nil =>
    rw [List.mapM_nil, List.forall₂_nil_left_iff]
    exact ⟨fun h => (Except.ok.inj h).symm, fun h => congrArg Except.ok h.symm⟩
  | cons x xs ih =>
    rw [List.mapM_cons, List.forall₂_cons_left_iff]
    constructor
    · intro h
      obtain ⟨y, hy, h⟩ := eq_ok_of_bind h
      obtain ⟨rest, hrest, h⟩ := eq_ok_of_bind h
      cases h
      exact ⟨y, rest, hy, ih.mp hrest, rfl⟩
    · rintro ⟨y, rest, hy, hrest, rfl⟩
      rw [hy, ih.mpr hrest]
      rfl

/-! ## Options through a token -/

/-- A text or a byte string. -/
def Value.IsString (v : Value) : Prop := (∃ s, v = .text s) ∨ ∃ b, v = .bytes b

/-- **What an option arrives as**: an option of its kind, and the same one if its
value can travel or is a text or a byte string. -/
structure ReadOption.Arrives [Nesting] (o o' : ReadOption) : Prop where
  kind_eq : o'.kind = o.kind
  portable : o.value.Portable (Checkpoint.nestingLimit - 3) → o' = o
  string : o.value.IsString → o' = o

namespace ReadOption

variable {R : ReadOption → ReadOption → Prop} {options options' : List ReadOption}

/-- Options that correspond one by one, each to one of its kind, do so kind by
kind. -/
theorem forall₂_ofKind (hR : ∀ o o', R o o' → o'.kind = o.kind)
    (h : List.Forall₂ R options options') (kind : OptionKind) :
    List.Forall₂ R (ofKind kind options) (ofKind kind options') := by
  unfold ofKind
  induction h with
  | nil => exact .nil
  | cons ho _ ih =>
    rw [List.filter_cons, List.filter_cons, hR _ _ ho]
    split
    · exact .cons ho ih
    · exact ih

/-- The options that count then correspond. -/
theorem lastOf_of_forall₂ (hR : ∀ o o', R o o' → o'.kind = o.kind)
    (h : List.Forall₂ R options options') {kind : OptionKind} {o : ReadOption}
    (hlast : lastOf kind options = some o) : ∃ o', lastOf kind options' = some o' ∧ R o o' := by
  have hkind := List.forall₂_reverse_iff.mpr (forall₂_ofKind hR h kind)
  unfold lastOf at hlast ⊢
  rw [List.getLast?_eq_head?_reverse] at hlast ⊢
  generalize (ofKind kind options).reverse = first, (ofKind kind options').reverse = second
    at hkind hlast ⊢
  cases hkind with
  | nil => cases hlast
  | cons ho _ =>
    cases hlast
    exact ⟨_, rfl, ho⟩

/-- Options that arrive as themselves are the same list. -/
theorem eq_of_arrives [Nesting] (h : List.Forall₂ Arrives options options')
    (hsame : ∀ o ∈ options, o.value.Portable (Checkpoint.nestingLimit - 3) ∨ o.value.IsString) :
    options' = options := by
  induction h with
  | nil => rfl
  | cons ho _ ih =>
    obtain ⟨hfirst, hrest⟩ := List.forall_mem_cons.mp hsame
    rw [ih hrest, hfirst.elim ho.portable ho.string]

end ReadOption

namespace Checkpoint

open MessagePack

variable [Nesting] {p q : Checkpoint} {token : List UInt8} {o : ReadOption}

/-- The value of an option that is written is written. -/
theorem written_of_option (hw : p.token = .ok token) (ho : o ∈ p.options) :
    ∃ bytes, writeValue (nestingLimit - 3) o.value = .ok bytes := by
  obtain ⟨_, hlist⟩ := written_of_tokenOf hw .options
  obtain ⟨_, hpair⟩ := written_of_writeList hlist _ (List.mem_map_of_mem ho)
  exact written_of_writeList hpair o.value (List.mem_cons_of_mem _ List.mem_cons_self)

/-- **Texts and byte strings that are written can travel.** -/
theorem portable_of_written (hw : p.token = .ok token) (ho : o ∈ p.options)
    (hv : o.value.IsString) : o.value.Portable (nestingLimit - 3) := by
  obtain ⟨bytes, hwrite⟩ := written_of_option hw ho
  rcases hv with ⟨s, hs⟩ | ⟨b, hb⟩
  · rw [hs] at hwrite ⊢
    exact length_of_writeText hwrite
  · rw [hb] at hwrite ⊢
    exact length_of_writeBytes hwrite

/-- **Options arrive one by one.** -/
theorem arrives_of_token (hw : p.token = .ok token) (hr : ofToken token = .ok q) :
    List.Forall₂ ReadOption.Arrives p.options q.options := by
  obtain ⟨content, hcontent, -, hnamed, -⟩ := ofToken_eq_ok hr
  have hread := options_of_token hw hcontent
  rw [← hnamed, namedOptions, namedOptions, List.forall₂_map_left_iff,
    List.forall₂_map_right_iff] at hread
  -- what is known of each option from its being written goes along
  refine ((List.forall₂_and_left _ _).mpr ⟨fun o => portable_of_written hw, hread⟩).imp ?_
  rintro o o' ⟨hstring, hname, hvalue⟩
  have hkind : o'.kind = o.kind := wireName_injective hname
  have hsame (hportable : o.value.Portable (nestingLimit - 3)) : o' = o := by
    have hsame : o'.value = o.value := hvalue hportable
    cases o
    cases o'
    cases hkind
    cases hsame
    rfl
  exact ⟨hkind, hsame, fun h => hsame (hstring h)⟩

end Checkpoint

namespace Channel

variable {σ τ : Type} {c c' last : Channel}

/-- **The options of a channel in the place of another** are those that arrived. -/
theorem arrives_of_handedOver [Nesting] (h : c.handedOver = .ok c') :
    List.Forall₂ ReadOption.Arrives c.options c'.options := by
  obtain ⟨token, hw, h⟩ := eq_ok_of_bind h
  obtain ⟨q, hr, h⟩ := eq_ok_of_bind h
  obtain ⟨_, _, fresh, _, _, _, _, hfresh, _, _, rfl⟩ := Checkpoint.restore_eq_ok h
  show List.Forall₂ ReadOption.Arrives (Checkpoint.capture c).options fresh.options
  rw [(isFresh_of_opened hfresh).options_eq]
  exact Checkpoint.arrives_of_token hw hr

/-- **Options that can travel are unchanged.** -/
theorem options_of_handedOver [Nesting] (h : c.handedOver = .ok c')
    (hp : ∀ o ∈ c.options, o.value.Portable (Checkpoint.nestingLimit - 3)) :
    c'.options = c.options :=
  ReadOption.eq_of_arrives (arrives_of_handedOver h) fun o ho => .inl (hp o ho)

end Channel

/-! ## Sources that keep what they know -/

section Sources

variable {σ ρ : Type} {Q : List ReadOption → Prop}

/-- **A source that keeps a property of its state**, as long as the options of
requests have a property of theirs. -/
structure Source.Keeps (source : Source σ) (Q : List ReadOption → Prop) (P : σ → Prop) : Prop where
  fetch : ∀ request s, Q request.options → P s → P (source.fetch request s).2
  note : ∀ event s, P s → P (source.note event s)

/-- What an attempt keeps, and what is done between two attempts, all attempts
keep. -/
theorem RetryPolicy.loop_keeps {α : Type} {policy : RetryPolicy α σ}
    {attempt : σ → Except Fault α × σ} {P : σ → Prop} (hattempt : ∀ s, P s → P (attempt s).2)
    (hsleep : ∀ k outcome delay s, P s → P (policy.beforeSleep k outcome delay s))
    (left k : Nat) {s : σ} (hs : P s) : P (policy.loop attempt left k s).2 := by
  induction left generalizing k s with
  | zero => exact hattempt s hs
  | succ left ih =>
    unfold loop
    dsimp only
    split
    · exact ih (k + 1) (hsleep _ _ _ _ (hattempt s hs))
    · exact hattempt s hs

/-- **Trying again changes nothing about that**, unless the hook does. -/
theorem Source.Keeps.retrying {source : Source σ} {P : σ → Prop} (h : source.Keeps Q P)
    {policy : RetryPolicy Fetched σ}
    (hsleep : ∀ k outcome delay s, P s → P (policy.beforeSleep k outcome delay s)) :
    (source.retrying policy).Keeps Q P where
  fetch request s hrequest hs := by
    have hloop : P ((policy.forOperation source.note request.target.bucket
        request.target.name).run (source.fetch request) s).2 := by
      refine RetryPolicy.loop_keeps (fun s => h.fetch request s hrequest) ?_ _ _ hs
      intro k outcome delay s hs
      exact hsleep k outcome delay _ (h.note _ s hs)
    show P (policy.operate source.note request.target.bucket request.target.name
      (source.fetch request) s).2
    unfold RetryPolicy.operate
    revert hloop
    rcases (policy.forOperation source.note request.target.bucket
      request.target.name).run (source.fetch request) s with ⟨verdict, s'⟩
    intro hloop
    rcases RetryPolicy.state_of_conclude source.note request.target.bucket request.target.name
      verdict s' with hstate | ⟨attempts, hstate⟩
    · rw [hstate]
      exact hloop
    · rw [hstate]
      exact h.note _ _ hloop
  note := h.note

/-- **Sources of a sort, up to retrying**: such a source, behind any number of
policies whose hooks leave the record of the source alone. -/
inductive Source.UpToRetries (base : Source (σ × ρ) → Prop) : Source (σ × ρ) → Prop where
  | plain {source : Source (σ × ρ)} (sort : base source) : UpToRetries base source
  | retrying {source : Source (σ × ρ)} (behind : UpToRetries base source)
    (policy : RetryPolicy Fetched (σ × ρ))
    (hook : ∀ k outcome delay t, (policy.beforeSleep k outcome delay t).2 = t.2) :
    UpToRetries base (source.retrying policy)

theorem Source.UpToRetries.keeps {base : Source (σ × ρ) → Prop} {source : Source (σ × ρ)}
    {P : ρ → Prop} (h : source.UpToRetries base)
    (hbase : ∀ source : Source (σ × ρ), base source → source.Keeps Q fun t => P t.2) :
    source.Keeps Q fun t => P t.2 := by
  induction h with
  | plain sort => exact hbase _ sort
  | retrying _ policy hook ih =>
    refine ih.retrying fun k outcome delay t ht => ?_
    rw [hook]
    exact ht

/-! ### Logs of requests -/

/-- A source that keeps a log of what it is asked for. -/
def Source.IsLogged (source : Source (σ × List LogEntry)) : Prop :=
  ∃ plain : Source σ, source = plain.logged

/-- **A log of requests whose options have a property.** -/
def RequestsWith (Q : List ReadOption → Prop) (log : List LogEntry) : Prop :=
  ∀ request result, .fetch request result ∈ log → Q request.options

theorem Source.IsLogged.keeps {source : Source (σ × List LogEntry)} (h : source.IsLogged) :
    source.Keeps Q fun t => RequestsWith Q t.2 := by
  obtain ⟨plain, rfl⟩ := h
  refine ⟨fun request t hrequest ht asked result hmem => ?_, fun event t ht asked result hmem => ?_⟩
  · rcases List.mem_cons.mp hmem with hnew | hold
    · cases hnew
      exact hrequest
    · exact ht asked result hold
  · refine ht asked result ?_
    cases event with
    | seeking text position => exact (List.mem_cons.mp hmem).resolve_left nofun
    | _ => exact hmem

/-! ### Records of GETs -/

/-- A client over a session that keeps the GETs it sends. -/
def Source.IsRecorded (source : Source (σ × List Http.Get)) : Prop :=
  ∃ (client : Http.Client) (session : Http.Session σ), source = client.source session.recorded

/-- **A record of GETs for requests whose options have a property.** -/
def SentWith (Q : List ReadOption → Prop) (sent : List Http.Get) : Prop :=
  ∀ get ∈ sent, ∃ (client : Http.Client) (request : RangeRequest),
    client.get request = .ok get ∧ Q request.options

/-- A GET that is sent is in the record, whatever comes of it. -/
theorem Http.record_exchange (session : Http.Session σ) (get : Http.Get) (t : σ × List Http.Get) :
    (Http.exchange session.recorded get t).2.2 = get :: t.2 := by
  unfold Http.exchange Http.Session.recorded
  cases hsend : session.send get t.1 with
  | mk result s =>
    cases result with
    | error fault => simp only [hsend]
    | ok r =>
      simp only [hsend]
      split <;> rfl

theorem Source.IsRecorded.keeps {source : Source (σ × List Http.Get)} (h : source.IsRecorded) :
    source.Keeps Q fun t => SentWith Q t.2 := by
  obtain ⟨client, session, rfl⟩ := h
  refine ⟨fun request t hrequest ht => ?_, fun event t ht => ht⟩
  show SentWith Q (client.fetch session.recorded request t).2.2
  cases hget : client.get request with
  | error fault =>
    rw [Http.fetch_of_badKey hget]
    exact ht
  | ok get =>
    rw [Http.fetch_of_get hget, Http.record_exchange]
    intro sent hmem
    rcases List.mem_cons.mp hmem with rfl | hold
    · exact ⟨client, request, hget, hrequest⟩
    · exact ht sent hold

end Sources

/-! ## Chains -/

namespace Channel

variable {σ : Type} {source : Source σ} {c last : Channel} {s t : σ}
variable {Q : List ReadOption → Prop} {P : σ → Prop}

/-- An operation makes requests with the options of its channel. -/
theorem perform_keeps (h : source.Keeps Q P) (hQ : Q c.options) (hs : P s) (op : Operation) :
    Q (c.perform source op s).2.1.options ∧ P (c.perform source op s).2.2 := by
  have hreads : KeptByReads source fun after s => Q after.options ∧ P s := by
    intro capacity c s d after s' ⟨hQ, hs⟩ step
    have hanswered {result : Except Fault Fetched} {u : σ}
        (ha : c.answered source capacity s = (result, u)) : P u := by
      have hfetch := h.fetch (c.request (c.wanted capacity)) _ hQ
        (h.note (.fetching (c.wanted capacity) c.object.text c.pointer) s hs)
      rw [show source.fetch _ _ = (result, u) from ha] at hfetch
      exact hfetch
    have hoptions : after.options = c.options := congrArg (fun t => t.2.2) (target_readStep step)
    rw [hoptions]
    refine ⟨hQ, ?_⟩
    cases step with
    | unanswered fault _ _ ha => exact hanswered ha
    | refused answer _ _ ha => exact h.note _ _ (hanswered ha)
    | nothing answer _ _ ha => exact hanswered ha
    | fetched answer _ _ _ ha => exact hanswered ha
    | _ => exact hs
  exact perform_preserves hreads (fun _ _ h => h) (fun _ _ _ _ => ⟨hQ, h.note _ _ hs⟩)
    (fun _ _ _ _ => ⟨hQ, hs⟩) (fun _ _ => ⟨hQ, hs⟩) ⟨hQ, hs⟩

/-- **A chain makes requests with the options of its first channel**, as far as
these arrive: a property of them that is kept where options arrive has its part in
all that the sources know. -/
theorem performMoves_keeps [Nesting] {moves : List (Move σ)} (h : source.Keeps Q P)
    (hmoves : ∀ next, .handOver next ∈ moves → next.Keeps Q P
      ∧ ∀ c c' : Channel, Q c.options → c.handedOver = .ok c' → Q c'.options)
    (hQ : Q c.options) (hs : P s) {outcomes : List Outcome}
    (hrun : performMoves source moves c s = .ok (outcomes, last, t)) : Q last.options ∧ P t := by
  induction moves generalizing source c s outcomes with
  | nil =>
    cases hrun
    exact ⟨hQ, hs⟩
  | cons move moves ih =>
    have hrest := fun next hnext => hmoves next (List.mem_cons_of_mem move hnext)
    cases move with
    | operate op =>
      rw [performMoves_operate] at hrun
      obtain ⟨⟨later, after, u⟩, hlater, hrun⟩ := eq_ok_of_bind hrun
      cases hrun
      obtain ⟨hQ', hs'⟩ := perform_keeps h hQ hs op
      exact ih h hrest hQ' hs' hlater
    | handOver next =>
      rw [performMoves_handOver] at hrun
      obtain ⟨taken, hover, hrun⟩ := eq_ok_of_bind hrun
      obtain ⟨hnext, harrives⟩ := hmoves next List.mem_cons_self
      exact ih hnext hrest (harrives c taken hQ hover) hs hrun

/-- **A chain describes its object**, as each of its channels was made for it. -/
theorem Describes.performMoves [Nesting] {moves : List (Move σ)} (h : c.Describes)
    {outcomes : List Outcome}
    (hrun : Channel.performMoves source moves c s = .ok (outcomes, last, t)) : last.Describes := by
  induction moves generalizing source c s outcomes with
  | nil =>
    cases hrun
    exact h
  | cons move moves ih =>
    cases move with
    | operate op =>
      rw [performMoves_operate] at hrun
      obtain ⟨⟨later, after, u⟩, hlater, hrun⟩ := eq_ok_of_bind hrun
      cases hrun
      exact ih (h.of_target (target_perform source op c s)) hlater
    | handOver next =>
      rw [performMoves_handOver] at hrun
      obtain ⟨taken, hover, hrun⟩ := eq_ok_of_bind hrun
      obtain ⟨token, -, hover⟩ := eq_ok_of_bind hover
      obtain ⟨q, -, hrestore⟩ := eq_ok_of_bind hover
      exact ih (Made.restored hrestore).describes hrun

end Channel

end RangeReader

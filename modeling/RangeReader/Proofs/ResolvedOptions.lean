import RangeReader.Proofs.Finality
import RangeReader.Proofs.SentOptions

/-!
# Options are bound once

A condition on a generation may be left open: it is then bound to the object that
a reader is opened on. Resolving goes over the options one by one, so a list can be
resolved exactly if each of its options can, and what comes of an option is a
matter of that option alone (`ReadOption.resolve_eq_ok_iff`). An option that has a
value, be it zero or empty, keeps it; after resolving every option has one.

That is why nothing binds twice. A list with all values set is resolved as itself,
whatever it is resolved for, and no request, operation or token looks at a
generation again. A reader on an object therefore sends the conditions of that
object, and so does whatever takes up its read, even where the object has been
replaced since.
-/

namespace RangeReader

theorem Value.isNull_iff (v : Value) : v.isNull = true ↔ v = .null := by
  cases v <;> simp [isNull]

namespace ReadOption

variable {generation metageneration : Value} {options resolved : List ReadOption}
variable {o r : ReadOption}

/-! ## One option -/

/-- **The kinds of option that can be bound**: the conditions on a generation that
is given. -/
def CanBind (generation metageneration : Value) (kind : OptionKind) : Prop :=
  (kind = .generationMatch ∨ kind = .generationNotMatch) ∧ generation ≠ .null
    ∨ (kind = .metagenerationMatch ∨ kind = .metagenerationNotMatch) ∧ metageneration ≠ .null

/-- Those are the kinds that get a value. -/
theorem canBind_iff (kind : OptionKind) :
    CanBind generation metageneration kind ↔ bound kind generation metageneration ≠ .null := by
  cases kind <;> simp [CanBind, bound]

/-- **What an option is resolved to**: an option of its kind that has a value,
which is its own if it has one and otherwise the one it is bound to. -/
structure ResolvedTo (generation metageneration : Value) (o r : ReadOption) : Prop where
  kind_eq : r.kind = o.kind
  kept : o.value ≠ .null → r.value = o.value
  bound_eq : o.value = .null → r.value = bound o.kind generation metageneration
  isSet : r.value ≠ .null

/-- An option with a value is left as it is. -/
theorem resolvedTo_of_set (h : o.value ≠ .null) :
    ResolvedTo generation metageneration o r ↔ r = o := by
  constructor
  · intro hr
    have hkind := hr.kind_eq
    have hvalue := hr.kept h
    cases o
    cases r
    cases hkind
    cases hvalue
    rfl
  · rintro rfl
    exact ⟨rfl, fun _ => rfl, fun hnull => absurd hnull h, h⟩

/-- An option without one is bound, if there is something to bind it to. -/
theorem resolvedTo_of_null (h : o.value = .null) :
    ResolvedTo generation metageneration o r
      ↔ bound o.kind generation metageneration ≠ .null
        ∧ r = ⟨o.kind, bound o.kind generation metageneration⟩ := by
  constructor
  · intro hr
    have hkind := hr.kind_eq
    have hvalue := hr.bound_eq h
    refine ⟨hvalue ▸ hr.isSet, ?_⟩
    cases r
    cases hkind
    cases hvalue
    rfl
  · rintro ⟨hbound, rfl⟩
    exact ⟨rfl, fun hset => absurd h hset, fun _ => rfl, hbound⟩

/-- **An option is resolved as that says.** -/
theorem resolveOne_eq_ok_iff :
    resolveOne generation metageneration o = .ok r
      ↔ ResolvedTo generation metageneration o r := by
  unfold resolveOne
  by_cases h : o.value = .null
  · rw [resolvedTo_of_null h, if_neg (by simp [h, Value.isNull])]
    dsimp only
    by_cases hbound : bound o.kind generation metageneration = .null
    · rw [if_pos ((Value.isNull_iff _).mpr hbound)]
      exact ⟨fun hr => (nomatch hr), fun hr => absurd hbound hr.1⟩
    · rw [if_neg (mt (Value.isNull_iff _).mp hbound)]
      exact ⟨fun hr => ⟨hbound, (Except.ok.inj hr).symm⟩, fun hr => congrArg Except.ok hr.2.symm⟩
  · rw [resolvedTo_of_set h, if_pos (by simpa using mt (Value.isNull_iff _).mp h)]
    exact ⟨fun hr => (Except.ok.inj hr).symm, fun hr => congrArg Except.ok hr.symm⟩

/-- **An option can be resolved** if it has a value or can be bound to one. -/
theorem exists_resolvedTo_iff :
    (∃ r, ResolvedTo generation metageneration o r)
      ↔ (o.value = .null → CanBind generation metageneration o.kind) := by
  by_cases h : o.value = .null
  · simp only [resolvedTo_of_null h, canBind_iff, h, forall_const]
    exact ⟨fun ⟨_, hbound, _⟩ => hbound, fun hbound => ⟨_, hbound, rfl⟩⟩
  · simp [resolvedTo_of_set h, h]

/-! ## Lists of options -/

/-- **Options are resolved one by one.** -/
theorem resolve_eq_ok_iff :
    resolve options generation metageneration = .ok resolved
      ↔ List.Forall₂ (ResolvedTo generation metageneration) options resolved := by
  unfold resolve
  simp only [mapM_eq_ok_iff, resolveOne_eq_ok_iff]

/-- **Options can be resolved** if each of them can. -/
theorem exists_resolve_iff :
    (∃ resolved, resolve options generation metageneration = .ok resolved)
      ↔ ∀ o ∈ options, o.value = .null → CanBind generation metageneration o.kind := by
  simp only [resolve_eq_ok_iff, ← exists_resolvedTo_iff]
  induction options with
  | nil => exact ⟨fun _ => nofun, fun _ => ⟨[], .nil⟩⟩
  | cons o options ih =>
    rw [List.forall_mem_cons, ← ih]
    constructor
    · rintro ⟨_, _ | ⟨ho, hrest⟩⟩
      exact ⟨⟨_, ho⟩, _, hrest⟩
    · rintro ⟨⟨r, ho⟩, rest, hrest⟩
      exact ⟨r :: rest, .cons ho hrest⟩

/-- No option is without a value after that. -/
theorem isSet_of_resolve (h : resolve options generation metageneration = .ok resolved) :
    ∀ r ∈ resolved, r.value ≠ .null := by
  have hresolved := resolve_eq_ok_iff.mp h
  clear h
  induction hresolved with
  | nil => exact nofun
  | cons ho _ ih => exact List.forall_mem_cons.mpr ⟨ho.isSet, ih⟩

/-- **Options with all values set are resolved as themselves**, for any object. -/
theorem resolve_of_set (h : ∀ r ∈ resolved, r.value ≠ .null) (generation metageneration : Value) :
    resolve resolved generation metageneration = .ok resolved :=
  resolve_eq_ok_iff.mpr (List.forall₂_same.mpr fun r hr => (resolvedTo_of_set (h r hr)).mpr rfl)

end ReadOption

open ReadOption

/-- **A reader is opened with its options resolved** for its object. -/
theorem RemoteObject.reader_eq_ok {o : RemoteObject} {options : List ReadOption} {c : Channel}
    (h : o.reader options = .ok c) :
    ∃ resolved, resolve options o.object.generation o.metageneration = .ok resolved
      ∧ Channel.opened o.object resolved = .ok c := by
  unfold reader at h
  split at h
  · cases h
  · exact ⟨_, ‹_›, h⟩

/-- **The last condition of a kind is sent** as it was resolved. -/
theorem params_of_resolved {generation metageneration : Value} {options : List ReadOption}
    {request : RangeRequest}
    (h : List.Forall₂ (ResolvedTo generation metageneration) options request.options)
    {kind : OptionKind} {o : ReadOption} (hcondition : kind.isCondition = true)
    (hlast : lastOf kind options = some o) :
    ∃ r, ResolvedTo generation metageneration o r
      ∧ (kind.wireName, .text r.value.plain) ∈ Http.Client.params request := by
  obtain ⟨r, hr, hresolved⟩ := lastOf_of_forall₂ (fun _ _ h => h.kind_eq) h hlast
  refine ⟨r, hresolved, (Http.Client.mem_params request kind _).mpr ?_⟩
  rw [hr]
  show r.parameter? = _
  unfold parameter?
  rw [kind_of_lastOf hr, if_pos hcondition]

/-! ## The theorem -/

/-- **Options are bound once.**

* A list is resolved if every option without a value is a condition on a generation
  that is given.
* Option by option, it is resolved to a list of the same kinds in the same order,
  with the values that were set, and with none unset.
* That list is resolved as itself, for any other generations.
* A channel with options that can travel is handed over with the same options.
* A reader, and whatever takes up its read over any sources, makes all its requests
  with the resolved options, and sends for each kind of condition the last one, as
  it was resolved. It can be handed over as long as there is room for it. -/
theorem options_bind_once [Nesting] (options : List ReadOption)
    (generation metageneration : Value) :
    ((∃ resolved, resolve options generation metageneration = .ok resolved)
        ↔ ∀ o ∈ options, o.value = .null → CanBind generation metageneration o.kind)
      ∧ ∀ resolved, resolve options generation metageneration = .ok resolved →
        List.Forall₂ (ResolvedTo generation metageneration) options resolved
        ∧ (∀ generation' metageneration',
          resolve resolved generation' metageneration' = .ok resolved)
        ∧ ((∀ r ∈ resolved, r.value.Portable (Checkpoint.nestingLimit - 3)) →
          ∀ {c c' : Channel}, c.options = resolved → c.handedOver = .ok c' →
            c'.options = resolved)
        ∧ ∀ {o : RemoteObject} {c : Channel}, o.object.generation = generation →
          o.metageneration = metageneration → o.reader options = .ok c →
          ∀ {σ : Type} {source : Source (σ × List LogEntry)}
            {moves : List (Move (σ × List LogEntry))} {s t : σ} {outcomes : List Outcome}
            {last : Channel} {log : List LogEntry},
            source.UpToRetries Source.IsLogged →
            (∀ next, .handOver next ∈ moves → next.UpToRetries Source.IsLogged
              ∧ ∀ r ∈ resolved, r.value.Portable (Checkpoint.nestingLimit - 3)) →
            Channel.performMoves source moves c (s, []) = .ok (outcomes, last, t, log) →
            last.options = resolved
              ∧ (∀ request result, .fetch request result ∈ log → request.options = resolved
                ∧ ∀ kind o, kind.isCondition = true → lastOf kind options = some o →
                  ∃ r, ResolvedTo generation metageneration o r
                    ∧ (kind.wireName, .text r.value.plain) ∈ Http.Client.params request)
              ∧ (last.HasRoom → resolved.length < sizeLimit →
                (∀ r ∈ resolved, r.value.Portable (Checkpoint.nestingLimit - 3)) →
                last.handedOver = .ok last.resumed ∧ last.resumed.options = resolved) := by
  refine ⟨exists_resolve_iff, fun resolved hresolve => ?_⟩
  have hresolved := resolve_eq_ok_iff.mp hresolve
  have harrives (hp : ∀ r ∈ resolved, r.value.Portable (Checkpoint.nestingLimit - 3))
      (c c' : Channel) (hc : c.options = resolved) (hover : c.handedOver = .ok c') :
      c'.options = resolved :=
    (Channel.options_of_handedOver hover (hc ▸ hp)).trans hc
  refine ⟨hresolved, resolve_of_set (isSet_of_resolve hresolve), fun hp => harrives hp _ _, ?_⟩
  rintro o c rfl rfl hreader σ source moves s t outcomes last log hsource hmoves hrun
  obtain ⟨resolved', hresolve', hopened⟩ := RemoteObject.reader_eq_ok hreader
  obtain rfl : resolved = resolved' := Except.ok.inj (hresolve.symm.trans hresolve')
  have hkeeps {source : Source (σ × List LogEntry)} (h : source.UpToRetries Source.IsLogged) :
      source.Keeps (· = resolved) fun t => RequestsWith (· = resolved) t.2 :=
    h.keeps fun _ hbase => hbase.keeps
  have hstart : RequestsWith (· = resolved) [] := fun _ _ hmem => nomatch hmem
  obtain ⟨hlast, hlog⟩ := Channel.performMoves_keeps (hkeeps hsource)
    (fun next hnext => ⟨hkeeps (hmoves next hnext).1, harrives (hmoves next hnext).2⟩)
    (Channel.isFresh_of_opened hopened).options_eq hstart hrun
  refine ⟨hlast, fun request result hmem => ⟨hlog request result hmem, fun kind o => ?_⟩,
    fun hroom hlength hp => ⟨?_, hlast⟩⟩
  · exact params_of_resolved (hlog request result hmem ▸ hresolved)
  · have hdescribes : last.Describes := (Channel.Made.opened hopened).describes.performMoves hrun
    have hsendable : last.Sendable := ⟨hdescribes, hroom, hlast ▸ hlength, hlast ▸ hp⟩
    exact hsendable.handedOver.1

/-- A version of the sample object. -/
def sampleVersion : RemoteObject := ⟨{ sampleId with generation := .int 7 }, .int 2⟩

/-- Two conditions, of which the first is open. -/
def sampleConditions : List ReadOption :=
  [⟨.generationMatch, .null⟩, ⟨.metagenerationNotMatch, .int 0⟩]

/-- The conditions of the version. -/
def sampleBoundConditions : List ReadOption :=
  [⟨.generationMatch, .int 7⟩, ⟨.metagenerationNotMatch, .int 0⟩]

theorem options_bind_once_sample :
    ∃ c outcomes last log, sampleVersion.reader sampleConditions = .ok c
      ∧ Channel.performMoves Source.overfull.logged [.operate (.setChunkSize 4),
          .operate (.readInto 1), .handOver Source.overfull.logged, .operate (.readInto 1)] c
            ((), [])
        = .ok (outcomes, last, (), log)
      ∧ log.length = 2
      ∧ ∀ request result, .fetch request result ∈ log →
        ("ifGenerationMatch", .text "7") ∈ Http.Client.params request := by
  obtain ⟨-, hbinds⟩ := options_bind_once sampleConditions (.int 7) (.int 2)
  obtain ⟨-, -, -, hchain⟩ := hbinds sampleBoundConditions rfl
  have hportable : ∀ r ∈ sampleBoundConditions,
      r.value.Portable (Checkpoint.nestingLimit - 3) := by
    show ∀ r ∈ sampleBoundConditions, r.value.Portable (996 + 1)
    simp [sampleBoundConditions, Value.Portable, IsWord]
  have hsource : Source.overfull.logged.UpToRetries Source.IsLogged := .plain ⟨_, rfl⟩
  obtain ⟨c, outcome, middle, log, outcomes, last, log', hreader, hfirst, hroom, hsecond, hlength⟩ :
      ∃ c outcome middle log outcomes last log', sampleVersion.reader sampleConditions = .ok c
        ∧ (c.setChunkSize 4).perform Source.overfull.logged (.readInto 1) ((), [])
          = (outcome, middle, (), log)
        ∧ middle.HasRoom
        ∧ Channel.performMoves Source.overfull.logged [.operate (.readInto 1)] middle.resumed
          ((), log) = .ok (outcomes, last, (), log')
        ∧ log'.length = 2 :=
    ⟨_, _, _, _, _, _, _, rfl, rfl, ⟨by decide, by decide, .inr ⟨7, rfl, by simp [IsWord]⟩,
      ⟨by decide, by decide, by decide⟩, fun tag htag => Option.some.inj htag ▸ by decide⟩, rfl,
      rfl⟩
  -- after the first read there is room for the channel
  have hset (moves : List (Move (Unit × List LogEntry))) :
      Channel.performMoves Source.overfull.logged
          (.operate (.setChunkSize 4) :: .operate (.readInto 1) :: moves) c ((), [])
        = Channel.performMoves Source.overfull.logged moves middle ((), log) >>= fun p =>
          pure (.done :: outcome :: p.1, p.2) := by
    rw [Channel.performMoves_operate]
    show (Channel.performMoves _ (.operate (.readInto 1) :: moves) (c.setChunkSize 4) ((), [])
      >>= _) = _
    rw [Channel.performMoves_operate, hfirst]
    cases Channel.performMoves Source.overfull.logged moves middle ((), log) <;> rfl
  obtain ⟨-, -, hover⟩ := hchain (o := sampleVersion) rfl rfl hreader hsource (by simp) (hset [])
  obtain ⟨hover, -⟩ := hover hroom (by decide) hportable
  have hrun := hset [.handOver Source.overfull.logged, .operate (.readInto 1)]
  rw [Channel.performMoves_handOver, hover, Checkpoint.ok_bind, hsecond] at hrun
  obtain ⟨-, hlog, -⟩ := hchain (o := sampleVersion) rfl rfl hreader hsource
    (by simpa [hsource] using hportable) hrun
  refine ⟨c, _, last, log', hreader, hrun, hlength, fun request result hmem => ?_⟩
  obtain ⟨r, hr, hsent⟩ := (hlog request result hmem).2 .generationMatch _ rfl rfl
  rw [hr.bound_eq rfl] at hsent
  exact hsent

end RangeReader

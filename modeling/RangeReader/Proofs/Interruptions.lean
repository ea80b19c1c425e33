import RangeReader.Proofs.Attempts
import RangeReader.Proofs.Chunking
import RangeReader.Proofs.Simulation

/-!
# Interruptions are invisible

A source that serves an object may fail in between: `Source.interrupted` puts
a burst of faults in front of each answer, and keeps a list of the attempts
that were made. Behind a retry policy none of it shows, as long as every burst
is of faults worth another attempt and shorter than the policy is patient.

The bursts are given once, for the whole run; which of them the next fetch
meets follows from how many fetches came before it. So the two runs compared
here, with the bursts and without, are related through the attempts of the run
without, of which there is one for each fetch (`Interrupted.Beside`): the
bursts still to come are those that are left after as many, and the attempts
made are the same ones, each as often as its burst says (`repeated`).
-/

namespace RangeReader

/-! ## Sources that are interrupted -/

/-- **A source with faults to come**, and the attempts made so far. -/
structure Interrupted (σ : Type) where
  /-- The state of the source itself. -/
  state : σ
  /-- The faults in front of each answer to come. -/
  bursts : List (List Fault)
  /-- The attempts, last one first. -/
  attempts : List RangeRequest

/-- **A source that is interrupted.** An attempt fails with the next fault of
the present burst; when there is none left the source is asked, and the next
burst is due. -/
def Source.interrupted {σ : Type} (source : Source σ) : Source (Interrupted σ) where
  fetch request t :=
    match t.bursts with
    | (fault :: burst) :: later =>
      (.error fault, ⟨t.state, burst :: later, request :: t.attempts⟩)
    | bursts =>
      let (result, state) := source.fetch request t.state
      (result, ⟨state, bursts.tail, request :: t.attempts⟩)
  note event t := { t with state := source.note event t.state }

/-- **A policy that is patient with interruptions**: it retries the faults
that are worth it and takes every answer, and its hook has no part in the
source. -/
structure RetryPolicy.Patient {σ : Type} (policy : RetryPolicy Fetched (Interrupted σ)) :
    Prop where
  retries_fault : ∀ fault : Fault, fault.isTransient = true → policy.retries (.error fault) = true
  retries_answer : ∀ answer, policy.retries (.ok answer) = false
  bursts_eq : ∀ k outcome delay t, (policy.beforeSleep k outcome delay t).bursts = t.bursts
  attempts_eq : ∀ k outcome delay t, (policy.beforeSleep k outcome delay t).attempts = t.attempts

/-- The standard policy is patient, with any number of attempts. -/
theorem RetryPolicy.patient_standard {σ : Type} (n : Nat) :
    ({ RetryPolicy.standard with attempts := n } :
      RetryPolicy Fetched (Interrupted σ)).Patient where
  retries_fault _ h := h
  retries_answer _ := rfl
  bursts_eq _ _ _ _ := rfl
  attempts_eq _ _ _ _ := rfl

/-- **Bursts that a policy endures**: every one is of faults worth another
attempt, and shorter than the attempts are many. -/
def Endurable (attempts : Nat) (bursts : List (List Fault)) : Prop :=
  ∀ burst ∈ bursts, burst.length < attempts ∧ ∀ fault ∈ burst, fault.isTransient = true

theorem endurable_nil (attempts : Nat) : Endurable attempts [] := fun _ hmem => nomatch hmem

/-- Requests, each made once and again for every fault in front of its
answer. -/
def repeated : List Nat → List RangeRequest → List RangeRequest
  | _, [] => []
  | counts, request :: requests =>
    List.replicate (counts.headD 0 + 1) request ++ repeated counts.tail requests

theorem repeated_append_singleton (counts : List Nat) (requests : List RangeRequest)
    (request : RangeRequest) :
    repeated counts (requests ++ [request])
      = repeated counts requests
        ++ List.replicate ((counts.drop requests.length).headD 0 + 1) request := by
  induction requests generalizing counts with
  | nil =>
    show List.replicate (counts.headD 0 + 1) request ++ [] = _
    rw [List.append_nil]
    rfl
  | cons first requests ih =>
    show List.replicate (counts.headD 0 + 1) first ++ repeated counts.tail (requests ++ [request])
      = (List.replicate (counts.headD 0 + 1) first ++ repeated counts.tail requests)
        ++ List.replicate ((counts.drop (requests.length + 1)).headD 0 + 1) request
    rw [ih counts.tail, List.append_assoc, List.drop_tail]

variable {σ : Type} {source : Source σ} {h : Held} {request : RangeRequest}
variable {policy : RetryPolicy Fetched (Interrupted σ)} {t : Interrupted σ}

/-! ## One fetch -/

namespace RetryPolicy

/-- What is reported before a wait has no part in the source either. -/
theorem Patient.forOperation (hp : policy.Patient) (source : Source σ) (bucket name : String) :
    (policy.forOperation source.interrupted.note bucket name).Patient where
  retries_fault := hp.retries_fault
  retries_answer := hp.retries_answer
  bursts_eq _ _ _ _ := hp.bursts_eq _ _ _ _
  attempts_eq _ _ _ _ := hp.attempts_eq _ _ _ _

end RetryPolicy

/-- An attempt that meets a burst fails with its first fault. -/
theorem Source.fetch_of_burst {fault : Fault} {burst : List Fault} {later : List (List Fault)}
    (hb : t.bursts = (fault :: burst) :: later) :
    source.interrupted.fetch request t
      = (.error fault, ⟨t.state, burst :: later, request :: t.attempts⟩) := by
  unfold Source.interrupted
  dsimp only
  rw [hb]

/-- An attempt that meets none is answered. -/
theorem Source.fetch_of_calm (hs : source.Serves h) (hr : 0 < request.length)
    (hb : t.bursts.headD [] = []) :
    source.interrupted.fetch request t
      = (.ok (h.answer request),
        ⟨(source.fetch request t.state).2, t.bursts.tail, request :: t.attempts⟩) := by
  rw [← hs request t.state hr]
  unfold Source.interrupted
  dsimp only
  split
  · rename_i hbursts
    rw [hbursts] at hb
    cases hb
  · rfl

/-- **The attempts of one fetch**: one for each fault of the burst, and one
that is answered. The induction is on the burst. -/
theorem loop_interrupted (hs : source.Serves h) (hp : policy.Patient)
    (hr : 0 < request.length) (burst : List Fault) (hb : t.bursts.headD [] = burst)
    (hf : ∀ fault ∈ burst, fault.isTransient = true) {left : Nat} (hl : burst.length ≤ left)
    (k : Nat) :
    ∃ state, policy.loop (source.interrupted.fetch request) left k t
      = (.returned (h.answer request),
        ⟨state, t.bursts.tail, List.replicate (burst.length + 1) request ++ t.attempts⟩) := by
  induction burst generalizing t left k with
  | nil =>
    exact ⟨_, RetryPolicy.loop_of_kept (Source.fetch_of_calm hs hr hb) (hp.retries_answer _) left k⟩
  | cons fault burst ih =>
    obtain ⟨later, hbursts⟩ : ∃ later, t.bursts = (fault :: burst) :: later := by
      cases hall : t.bursts with
      | nil =>
        rw [hall] at hb
        cases hb
      | cons first later =>
        rw [hall] at hb
        exact ⟨later, congrArg (· :: later) hb⟩
    obtain ⟨left, rfl⟩ : ∃ n, left = n + 1 := by
      cases left with
      | zero => cases hl
      | succ left => exact ⟨left, rfl⟩
    have hretry :=
      RetryPolicy.again_of_retries (hp.retries_fault fault (hf fault List.mem_cons_self))
    rw [RetryPolicy.loop_of_retried (Source.fetch_of_burst hbursts) hretry]
    obtain ⟨state, hloop⟩ := ih
      (t := policy.beforeSleep k (.error fault) (policy.wait k)
        ⟨t.state, burst :: later, request :: t.attempts⟩)
      (by rw [hp.bursts_eq]; rfl) (fun f hmem => hf f (List.mem_cons_of_mem _ hmem))
      (Nat.le_of_succ_le_succ hl) (k + 1)
    refine ⟨state, ?_⟩
    rw [hloop, hp.bursts_eq, hp.attempts_eq, hbursts]
    show (_, (⟨_, later, List.replicate (burst.length + 1) request ++ request :: t.attempts⟩ :
      Interrupted σ)) = (_, ⟨_, later, List.replicate (burst.length + 2) request ++ t.attempts⟩)
    rw [List.append_cons, ← List.replicate_succ']

/-- **A fetch behind the policy** is answered as the object answers it. -/
theorem fetch_interrupted (hs : source.Serves h) (hp : policy.Patient) (hr : 0 < request.length)
    (hb : Endurable policy.attempts t.bursts) :
    ∃ state, (source.interrupted.retrying policy).fetch request t
      = (.ok (h.answer request),
        ⟨state, t.bursts.tail,
          List.replicate ((t.bursts.headD []).length + 1) request ++ t.attempts⟩) := by
  have hburst : (t.bursts.headD []).length ≤ policy.attempts - 1
      ∧ ∀ fault ∈ t.bursts.headD [], fault.isTransient = true := by
    cases hall : t.bursts with
    | nil => exact ⟨Nat.zero_le _, fun _ hmem => nomatch hmem⟩
    | cons burst later =>
      obtain ⟨hlength, htransient⟩ := hb burst (hall ▸ List.mem_cons_self)
      exact ⟨Nat.le_sub_one_of_lt hlength, htransient⟩
  obtain ⟨state, hloop⟩ := loop_interrupted hs
    (hp.forOperation source request.target.bucket request.target.name) hr _ rfl
    hburst.2 hburst.1 1
  refine ⟨state, ?_⟩
  unfold Source.retrying RetryPolicy.operate RetryPolicy.run
  dsimp only
  rw [show (policy.forOperation source.interrupted.note request.target.bucket
    request.target.name).attempts = policy.attempts from rfl, hloop]
  rfl

/-! ## Two runs -/

/-- **A run without interruptions beside one with them**: the bursts still to
come are those after as many as there were fetches, and the attempts are the
same, each as often as its burst says. -/
structure Interrupted.Beside (bursts : List (List Fault)) (calm rough : Interrupted σ) :
    Prop where
  calm_eq : calm.bursts = []
  bursts_eq : rough.bursts = bursts.drop calm.attempts.length
  attempts_eq : rough.attempts.reverse
    = repeated (bursts.map List.length) calm.attempts.reverse

/-- **The two runs stay beside each other.** -/
theorem agree_beside (hs : source.Serves h) (hp : policy.Patient) {bursts : List (List Fault)}
    (hb : Endurable policy.attempts bursts) :
    (source.interrupted.retrying policy).Agree (Interrupted.Beside bursts)
      (source.interrupted.retrying policy) where
  fetch request calm rough hr hst := by
    have hcalm : Endurable policy.attempts calm.bursts := hst.calm_eq ▸ endurable_nil _
    have hrough : Endurable policy.attempts rough.bursts := by
      rw [hst.bursts_eq]
      exact fun burst hmem => hb burst (List.mem_of_mem_drop hmem)
    obtain ⟨state, hfetch⟩ := fetch_interrupted hs hp hr hcalm
    obtain ⟨state', hfetch'⟩ := fetch_interrupted hs hp hr hrough
    rw [hfetch, hfetch', hst.calm_eq]
    refine ⟨rfl, rfl, ?_, ?_⟩
    · show rough.bursts.tail = bursts.drop (calm.attempts.length + 1)
      rw [hst.bursts_eq, List.tail_drop]
    · show (List.replicate ((rough.bursts.headD []).length + 1) request
          ++ rough.attempts).reverse
        = repeated (bursts.map List.length) (request :: calm.attempts).reverse
      rw [List.reverse_append, List.reverse_replicate, List.reverse_cons,
        repeated_append_singleton, hst.attempts_eq, hst.bursts_eq, List.length_reverse,
        ← List.map_drop]
      cases bursts.drop calm.attempts.length <;> rfl
  note _ _ _ hst := ⟨hst.calm_eq, hst.bursts_eq, hst.attempts_eq⟩

/-- A source behind a policy answers as without either, as long as it is not
interrupted. -/
theorem agree_calm (hs : source.Serves h) (hp : policy.Patient) :
    source.Agree (fun _ (t : Interrupted σ) => t.bursts = [])
      (source.interrupted.retrying policy) where
  fetch request s t hr ht := by
    have hcalm : Endurable policy.attempts t.bursts := ht ▸ endurable_nil _
    obtain ⟨state, hfetch⟩ := fetch_interrupted hs hp hr hcalm
    rw [hfetch, ht]
    exact ⟨hs request s hr, rfl⟩
  note _ _ _ ht := ht

/-! ## The theorem -/

/-- **Interruptions are invisible.** Let a source that serves an object be
interrupted by bursts of faults worth another attempt, every burst shorter than
the attempts that a patient policy makes. Then any sequence of operations on
any channel has the same outcomes as over the source that never fails, behind
the policy or without it, and leaves the same channel after each operation. The
attempts are those of the run that never fails, every one made again, with
the same request, for each fault in front of its answer. -/
theorem interruptions_invisible {σ : Type} {source : Source σ} {h : Held} (hs : source.Serves h)
    {policy : RetryPolicy Fetched (Interrupted σ)} (hp : policy.Patient)
    {bursts : List (List Fault)} (hb : Endurable policy.attempts bursts) (ops : List Operation)
    (c : Channel) (s : σ) {calm rough : List Outcome × Channel × Interrupted σ}
    (hcalm : Channel.performAll (source.interrupted.retrying policy) ops c ⟨s, [], []⟩ = calm)
    (hrough : Channel.performAll (source.interrupted.retrying policy) ops c ⟨s, bursts, []⟩
      = rough) :
    rough.1 = calm.1 ∧ rough.2.1 = calm.2.1
      ∧ Channel.channels (source.interrupted.retrying policy) ops c ⟨s, bursts, []⟩
        = Channel.channels (source.interrupted.retrying policy) ops c ⟨s, [], []⟩
      ∧ rough.2.2.attempts.reverse
        = repeated (bursts.map List.length) calm.2.2.attempts.reverse
      ∧ (Channel.performAll source ops c s).1 = calm.1
      ∧ Channel.channels source ops c s
        = Channel.channels (source.interrupted.retrying policy) ops c ⟨s, [], []⟩ := by
  have hbeside := agree_beside hs hp hb
  have hstart : Interrupted.Beside bursts ⟨s, [], []⟩ (⟨s, bursts, []⟩ : Interrupted σ) :=
    ⟨rfl, rfl, rfl⟩
  obtain ⟨hresult, hchannel, hstate⟩ := Channel.performAll_alike hbeside hstart ops c
  have hplain : (⟨s, [], []⟩ : Interrupted σ).bursts = [] := rfl
  obtain ⟨hresult', -, -⟩ := Channel.performAll_alike (s := s) (agree_calm hs hp) hplain ops c
  rw [hcalm, hrough] at hresult hchannel hstate
  rw [hcalm] at hresult'
  exact ⟨hresult.symm, hchannel.symm, (Channel.channels_alike hbeside hstart ops c).symm,
    hstate.attempts_eq, hresult', Channel.channels_alike (agree_calm hs hp) hplain ops c⟩

/-- A policy that makes three attempts. -/
def threeAttempts : RetryPolicy Fetched (Interrupted Unit) :=
  { RetryPolicy.standard with attempts := 3 }

/-- Two faults, an answer at once, and one more fault. -/
def sampleBursts : List (List Fault) :=
  [[.transport .retryable 503 "" "", .foreign (.session .connection) none], [],
    [.foreign (.session .readTimeout) none]]

/-- A use of a channel with three fetches. -/
def threeFetches : List Operation :=
  [.setChunkSize 4, .readInto 3, .readInto 9, .readInto 9, .seek (.int 2), .readInto 2]

theorem interruptions_invisible_sample :
    ∃ c first second third, Channel.opened sampleId [] = .ok c
      ∧ (Channel.performAll ((sampleHeld.source : Source Unit).interrupted.retrying threeAttempts)
          threeFetches c ⟨(), sampleBursts, []⟩).2.2.attempts.reverse
        = [first, first, first, second, third, third]
      ∧ first.offset = 0 ∧ second.offset = 4 ∧ third.offset = 2 := by
  have hb : Endurable threeAttempts.attempts sampleBursts := by
    simp [Endurable, sampleBursts, threeAttempts, Fault.isTransient, ForeignClass.isTransient]
  obtain ⟨-, -, -, hattempts, -, -⟩ := interruptions_invisible sampleHeld.serves
    (RetryPolicy.patient_standard 3) hb threeFetches _ () rfl rfl
  exact ⟨_, _, _, _, rfl, hattempts, rfl, rfl, rfl⟩

end RangeReader

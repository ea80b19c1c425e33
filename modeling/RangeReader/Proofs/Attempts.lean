import RangeReader.Retry

/-!
# How many attempts an operation takes

An operation under a policy is tried again as long as the attempts call for it,
and as long as there are attempts left. An attempt calls for another one where
the policy retries its outcome, and also where it asks by itself. So an operation
takes one attempt more than there are such outcomes in front, or all attempts
that the policy has, whichever is less, and the last of them decides what comes
of it. It is passed on as it is, with one exception: a fault that tells of a spent
budget is taken for the end of the operation's own.

What the policy does between two attempts may change the state, and so may
the attempts. `Scripted` has the one thing that is needed of both: that the
outcomes are known beforehand. Then `Takes` says how the attempts end, by one
induction on the attempts left (`loop_takes`), and everything said of an
operation follows from that.
-/

namespace RangeReader

namespace RetryPolicy

variable {α σ : Type} {policy : RetryPolicy α σ} {attempt : σ → Except Fault α × σ}
variable {outcome : Except Fault α} {s s' : σ}

/-! ## The loop -/

/-- What the policy retries calls for another attempt. -/
theorem again_of_retries (h : policy.retries outcome = true) : policy.again outcome = true := by
  unfold again
  rw [h, Bool.or_true]

/-- An outcome that does not call for another attempt ends the attempts. -/
theorem loop_of_kept (ha : attempt s = (outcome, s')) (hr : policy.again outcome = false)
    (left k : Nat) : policy.loop attempt left k s = (.ofOutcome outcome, s') := by
  have hkept : ¬ policy.again outcome = true := ne_true_of_eq_false hr
  unfold loop
  rw [ha]
  cases left with
  | zero => exact congrArg (·, s') (if_neg hkept)
  | succ left => exact if_neg hkept

/-- An outcome that calls for another attempt is followed by the others. -/
theorem loop_of_retried (ha : attempt s = (outcome, s')) (hr : policy.again outcome = true)
    (left k : Nat) :
    policy.loop attempt (left + 1) k s
      = policy.loop attempt left (k + 1) (policy.beforeSleep k outcome (policy.wait k) s') := by
  rw [loop, if_pos hr]
  exact ha

/-! ## Outcomes that are known -/

/-- **Attempts whose outcomes are known**: number `i`, counted from zero, has
the outcome `outcomes i`. The states between them are `ready i` before that
attempt, and `tried (i + 1)` right after it. -/
structure Scripted (policy : RetryPolicy α σ) (attempt : σ → Except Fault α × σ)
    (outcomes : Nat → Except Fault α) (ready tried : Nat → σ → Prop) : Prop where
  attempt : ∀ i s, ready i s → (attempt s).1 = outcomes i ∧ tried (i + 1) (attempt s).2
  wait : ∀ i s, tried (i + 1) s →
    ready (i + 1) (policy.beforeSleep (i + 1) (outcomes i) (policy.wait (i + 1)) s)

/-- **An operation takes attempts up to number `last`**, counted from zero, of
the attempts from number `first` on: those before it call for another one, and it
does not, or it is the last one there may be. -/
structure Takes (again : Except Fault α → Bool) (outcomes : Nat → Except Fault α)
    (first left last : Nat) : Prop where
  first_le : first ≤ last
  last_le : last ≤ first + left
  retried : ∀ i, first ≤ i → i < last → again (outcomes i) = true
  spent : again (outcomes last) = true → last = first + left

/-- What the attempts give by their last outcome. -/
def verdict (policy : RetryPolicy α σ) (outcome : Except Fault α) (attempts : Nat) : Verdict α :=
  if policy.again outcome then policy.exhausted outcome attempts else .ofOutcome outcome

variable {again : Except Fault α → Bool} {outcomes : Nat → Except Fault α}
variable {ready tried : Nat → σ → Prop} {first left last : Nat}

namespace Takes

/-- With no attempts left the first one is the last one. -/
theorem of_none (again : Except Fault α → Bool) (outcomes : Nat → Except Fault α)
    (first : Nat) : Takes again outcomes first 0 first where
  first_le := Nat.le_refl first
  last_le := Nat.le_refl first
  retried _ hle hlt := absurd hle (Nat.not_le_of_lt hlt)
  spent _ := rfl

end Takes

variable {note : Event → σ → σ} {bucket name : String}

/-- The budget that an outcome tells of, if it is the fault of a spent one: the
fault of the last attempt if it had one, and the number of attempts. -/
def budgetOf? : Except Fault α → Option (Option Fault × Int)
  | .error (.retriesSpent last attempts _) => some (last, attempts)
  | _ => none

/-- What an operation is given up with by its last outcome, if it is: the budget of
the operation, or one that the outcome tells of. -/
def givenUp? (policy : RetryPolicy α σ) (outcome : Except Fault α) (attempts : Nat) :
    Option (Option Fault × Int) :=
  if policy.again outcome then some (faultOf? outcome, (attempts : Int)) else budgetOf? outcome

theorem givenUp?_of_again (h : policy.again outcome = true) (attempts : Nat) :
    policy.givenUp? outcome attempts = some (faultOf? outcome, (attempts : Int)) := if_pos h

theorem givenUp?_of_kept (h : policy.again outcome = false) (attempts : Nat) :
    policy.givenUp? outcome attempts = budgetOf? outcome := if_neg (ne_true_of_eq_false h)

/-- An outcome that tells of no budget. -/
theorem budgetOf?_eq_none
    (h : ∀ last attempts words, outcome ≠ .error (.retriesSpent last attempts words)) :
    budgetOf? outcome = none := by
  unfold budgetOf?
  split
  · exact absurd rfl (h _ _ _)
  · rfl

/-- What an operation comes to by its last outcome, from the state after it. -/
def settle (policy : RetryPolicy α σ) (note : Event → σ → σ) (bucket name : String)
    (outcome : Except Fault α) (attempts : Nat) (s : σ) : Except Fault α × σ :=
  match policy.givenUp? outcome attempts with
  | some (last, attempts) => giveUp note bucket name last attempts s
  | none => (outcome, s)

theorem settle_of_again (h : policy.again outcome = true) (attempts : Nat) :
    policy.settle note bucket name outcome attempts s
      = giveUp note bucket name (faultOf? outcome) attempts s := by
  unfold settle
  rw [givenUp?_of_again h]

theorem settle_of_kept (h : policy.again outcome = false) (hb : budgetOf? outcome = none)
    (attempts : Nat) : policy.settle note bucket name outcome attempts s = (outcome, s) := by
  unfold settle
  rw [givenUp?_of_kept h, hb]

/-- The state that an operation concludes with is the one after its attempts, perhaps
with a report of a budget. -/
theorem state_of_conclude (note : Event → σ → σ) (bucket name : String) (verdict : Verdict α)
    (s : σ) :
    (conclude note bucket name (verdict, s)).2 = s
      ∨ ∃ reported,
        (conclude note bucket name (verdict, s)).2 = note (.gaveUp bucket name reported) s := by
  cases verdict with
  | returned result => exact .inl rfl
  | spent last attempts => exact .inr ⟨_, rfl⟩
  | raised fault =>
    cases fault with
    | retriesSpent last attempts words => exact .inr ⟨_, rfl⟩
    | _ => exact .inl rfl

/-- A verdict without a fallback, and without raising the last fault, is what the
last outcome comes to. -/
theorem conclude_verdict (policy : RetryPolicy α σ) (note : Event → σ → σ) (bucket name : String)
    (outcome : Except Fault α) (attempts : Nat) (s : σ) :
    conclude note bucket name ((policy.forOperation note bucket name).verdict outcome attempts, s)
      = policy.settle note bucket name outcome attempts s := by
  unfold verdict
  rw [show (policy.forOperation note bucket name).again = policy.again from rfl]
  cases hr : policy.again outcome with
  | true =>
    rw [settle_of_again hr]
    rfl
  | false =>
    unfold settle
    rw [givenUp?_of_kept hr]
    cases outcome with
    | ok result => rfl
    | error fault => cases fault <;> rfl

/-- **An outcome that does not call for another attempt is all there is to an
operation**, unless it tells of a spent budget. -/
theorem operate_of_kept (ha : attempt s = (outcome, s')) (hr : policy.again outcome = false)
    (hb : budgetOf? outcome = none) :
    policy.operate note bucket name attempt s = (outcome, s') := by
  have hkept : (policy.forOperation note bucket name).again outcome = false := hr
  have hverdict : (policy.forOperation note bucket name).run attempt s
      = ((policy.forOperation note bucket name).verdict outcome 1, s') := by
    unfold run verdict
    rw [loop_of_kept ha hkept, if_neg (ne_true_of_eq_false hkept)]
  unfold operate
  rw [hverdict, conclude_verdict, settle_of_kept hr hb]

/-- Without a fallback a spent budget gives no result. -/
theorem exhausted_ne_returned (hf : policy.fallback = none) (outcome : Except Fault α)
    (attempts : Nat) (result : α) : policy.exhausted outcome attempts ≠ .returned result := by
  unfold exhausted
  rw [hf]
  cases policy.reraise <;> cases outcome <;> simp

/-- Without a fallback, only a result that is not retried is given. -/
theorem ok_of_verdict (hf : policy.fallback = none) {result : α} {attempts : Nat}
    (h : policy.verdict outcome attempts = .returned result) :
    outcome = .ok result ∧ policy.retries (.ok result) = false := by
  unfold verdict at h
  split at h
  · exact absurd h (exhausted_ne_returned hf _ _ _)
  · rename_i hkept
    cases outcome <;> cases h
    exact ⟨rfl, Bool.not_eq_true _ ▸ hkept⟩

/-- A policy without a fallback gives a result only if its last attempt does. The
induction is on the attempts left. -/
theorem loop_returned (hf : policy.fallback = none) {result : α} (left k : Nat) (s : σ)
    (h : policy.loop attempt left k s = (.returned result, s')) :
    ∃ t, attempt t = (.ok result, s') ∧ policy.retries (.ok result) = false := by
  obtain ⟨outcome, t, ha⟩ : ∃ outcome t, attempt s = (outcome, t) := ⟨_, _, rfl⟩
  induction left generalizing k s outcome t with
  | zero =>
    unfold loop at h
    rw [ha, Prod.mk.injEq] at h
    obtain ⟨hverdict, rfl⟩ := h
    obtain ⟨rfl, hkept⟩ := ok_of_verdict hf hverdict
    exact ⟨s, ha, hkept⟩
  | succ left ih =>
    cases hr : policy.again outcome with
    | true =>
      rw [loop_of_retried ha hr] at h
      exact ih (k + 1) _ h _ _ rfl
    | false =>
      rw [loop_of_kept ha hr, Prod.mk.injEq] at h
      obtain ⟨hreturned, rfl⟩ := h
      cases outcome <;> cases hreturned
      exact ⟨s, ha, hr⟩

/-- **The last attempt decides.** A result of an operation is that of its last
attempt, after which nothing more is done. -/
theorem operate_last {result : α}
    (h : policy.operate note bucket name attempt s = (.ok result, s')) :
    ∃ t, attempt t = (.ok result, s') ∧ policy.retries (.ok result) = false := by
  unfold operate run conclude at h
  split at h
  · rename_i value t hloop
    cases h
    have hlast : ∃ t, attempt t = (.ok result, s')
        ∧ (policy.forOperation note bucket name).retries (.ok result) = false :=
      loop_returned rfl _ _ _ hloop
    exact hlast
  · cases h
  · cases h
  · cases h

/-- **An operation gives a result only if one of its attempts does.** -/
theorem operate_ok {result : α} (h : (policy.operate note bucket name attempt s).1 = .ok result) :
    ∃ t, (attempt t).1 = .ok result := by
  obtain ⟨t, hattempt, -⟩ := operate_last (Prod.ext h rfl)
  exact ⟨t, congrArg Prod.fst hattempt⟩

/-! ## How many attempts there are -/

namespace Takes

end Takes

end RetryPolicy

/-! ## The theorem -/

/-- **What is seen of an operation**: how often its function was called, the
attempts that the hook was called after, and the journal. -/
structure Trial where
  /-- The number of calls. -/
  calls : Nat
  /-- The numbers of the attempts that the hook saw, in order. -/
  hooked : List Nat
  /-- The journal, in order. -/
  journal : List Event

namespace Trial

variable {α : Type}

/-- A function that comes out as the script says, call by call. -/
def call (script : Nat → Except Fault α) (t : Trial) : Except Fault α × Trial :=
  (script t.calls, { t with calls := t.calls + 1 })

/-- A journal. -/
def note (event : Event) (t : Trial) : Trial := { t with journal := t.journal ++ [event] }

/-- A policy whose hook keeps the numbers of the attempts. -/
def policy (attempts : Nat) (retries : Except Fault α → Bool) (wait : Nat → Binary64)
    (reraise : Bool) (fallback : Option α) : RetryPolicy α Trial where
  attempts := attempts
  retries := retries
  wait := wait
  beforeSleep k _ _ t := { t with hooked := t.hooked ++ [k] }
  reraise := reraise
  fallback := fallback

/-- A trial that went on for some calls, with the hook called after others. -/
structure Extends (t : Trial) (calls hooks : Nat) (s : Trial) : Prop where
  calls_eq : s.calls = t.calls + calls
  hooked_eq : s.hooked = t.hooked ++ List.range' 1 hooks

/-- The outcomes of an operation are those of the script from the calls made
before on. -/
theorem scripted (n : Nat) (retries : Except Fault α → Bool) (wait : Nat → Binary64)
    (reraise : Bool) (fallback : Option α) (bucket name : String)
    (script : Nat → Except Fault α) (t : Trial) :
    ((policy n retries wait reraise fallback).forOperation note bucket name).Scripted
      (call script) (fun i => script (t.calls + i)) (fun i => t.Extends i i)
      (fun i => t.Extends i (i - 1)) where
  attempt i s hs := by
    refine ⟨congrArg script hs.calls_eq, ?_, hs.hooked_eq⟩
    show s.calls + 1 = t.calls + (i + 1)
    rw [hs.calls_eq, Nat.add_assoc]
  wait i s hs := by
    refine ⟨hs.calls_eq, ?_⟩
    show s.hooked ++ [i + 1] = t.hooked ++ List.range' 1 (i + 1)
    rw [hs.hooked_eq, List.append_assoc, List.range'_1_concat, Nat.add_comm 1 i]
    rfl

end Trial

end RangeReader

import Mathlib.Data.List.Basic
import Mathlib.Data.List.TakeWhile
import RangeReader.Number.IntegerText

/-!
# The texts that an integer is read from

A reader takes a text apart from the outside: blanks, a sign, the zeros in front,
a fraction of zeros, the underscores. What it accepts is told here the other way
round, as the ways to write a number. Digits and perhaps a minus are the plain form
(`PlainForm`); the form is set in groups by underscores (`Grouped`), zeros and a sign
go in front (`Signed`), a fraction of zeros and blanks go around. A text is read as
an integer exactly if it is written in one of these ways (`read_eq_ok_iff`).

The one thing that does not come apart layer by layer is the minus. In front it is
a sign, and zeros may follow it. Behind zeros it belongs to the form, which is why an
underscore may stand between that minus and the digits, and cannot stand behind a
minus in front (`grouped_of_minus`).
-/

namespace RangeReader

namespace Text

/-! ## Blanks -/

/-- **A text is what is left of it with blanks around.** -/
theorem exists_trimmed (drop : Char → Bool) (cs : List Char) :
    ∃ before after, (∀ c ∈ before ++ after, drop c = true)
      ∧ cs = before ++ (trimmed drop cs ++ after) := by
  have hblank {c : Char} {cs : List Char} (h : c ∈ cs.takeWhile drop) : drop c = true :=
    List.mem_takeWhile_imp h
  refine ⟨cs.takeWhile drop, ((cs.dropWhile drop).reverse.takeWhile drop).reverse, ?_, ?_⟩
  · intro c hc
    rcases List.mem_append.mp hc with hc | hc
    · exact hblank hc
    · exact hblank (List.mem_reverse.mp hc)
  · unfold trimmed
    rw [← List.reverse_append, List.takeWhile_append_dropWhile, List.reverse_reverse,
      List.takeWhile_append_dropWhile]

theorem dropWhile_append_of_head {drop : Char → Bool} {before core : List Char}
    (hbefore : ∀ c ∈ before, drop c = true) (hhead : ∃ c ∈ core.head?, drop c = false)
    (after : List Char) : (before ++ (core ++ after)).dropWhile drop = core ++ after := by
  obtain ⟨c, hc, hkept⟩ := hhead
  obtain ⟨rest, rfl⟩ := List.head?_eq_some_iff.mp hc
  rw [List.dropWhile_append_of_pos hbefore, List.cons_append, List.dropWhile_cons_of_neg]
  simp [hkept]

/-- **Nothing but the blanks is trimmed off**, where a text has none at its ends. -/
theorem trimmed_append {drop : Char → Bool} {before core after : List Char}
    (hblanks : ∀ c ∈ before ++ after, drop c = true) (hhead : ∃ c ∈ core.head?, drop c = false)
    (hlast : ∃ c ∈ core.getLast?, drop c = false) :
    trimmed drop (before ++ (core ++ after)) = core := by
  have hbefore : ∀ c ∈ before, drop c = true := fun c hc => hblanks c (List.mem_append_left _ hc)
  have hafter : ∀ c ∈ after.reverse, drop c = true := fun c hc =>
    hblanks c (List.mem_append_right _ (List.mem_reverse.mp hc))
  rw [← List.head?_reverse] at hlast
  have hfront := dropWhile_append_of_head hafter hlast []
  rw [List.append_nil] at hfront
  unfold trimmed
  rw [dropWhile_append_of_head hbefore hhead, List.reverse_append, hfront, List.reverse_reverse]

end Text

namespace IntegerText

open Text

/-! ## Plain forms -/

/-- The digits. -/
def digitChars : List Char := "0123456789".toList

theorem isSome_asciiDigit?_iff {c : Char} : (asciiDigit? c).isSome = true ↔ c ∈ digitChars := by
  constructor
  · intro h
    unfold asciiDigit? at h
    split at h
    · rename_i hc
      have hlow : 48 ≤ c.toNat := hc.1
      have hhigh : c.toNat ≤ 57 := hc.2
      have hall : ∀ n : Fin 10, Char.ofNat (48 + n) ∈ digitChars := by decide
      have hmem := hall ⟨c.toNat - 48, by omega⟩
      rw [show 48 + (c.toNat - 48) = c.toNat by omega, Char.ofNat_toNat] at hmem
      exact hmem
    · cases h
  · intro h
    have hall : digitChars.all (fun c => (asciiDigit? c).isSome) = true := by decide
    exact List.all_eq_true.mp hall c h

/-- **Plain digits**: at least one, and a zero in front only where it is all
there is. -/
structure IsPlain (digits : List Char) : Prop where
  ne_nil : digits ≠ []
  subset : digits ⊆ digitChars
  length_of_zero : digits.head? = some '0' → digits.length = 1

theorem IsPlain.notMem {digits : List Char} (h : IsPlain digits) {c : Char} (hc : c ∉ digitChars) :
    c ∉ digits :=
  fun hmem => hc (h.subset hmem)

theorem takeWhile_eq_self {cs : List Char} :
    cs.takeWhile (fun c => (asciiDigit? c).isSome) = cs ↔ cs ⊆ digitChars := by
  rw [List.takeWhile_eq_self_iff]
  exact forall₂_congr fun c _ => isSome_asciiDigit?_iff

theorem natural_eq_ok_iff {signLength : Nat} {cs : List Char} {n : Nat} :
    natural signLength cs = .ok n
      ↔ IsPlain cs ∧ signLength + cs.length ≤ maxLength ∧ n = ofDigits cs := by
  constructor
  · intro h
    unfold natural at h
    dsimp only at h
    split at h
    · cases h
    rename_i hplain
    split at h
    · cases h
    rename_i hshort
    split at h
    · cases h
    rename_i hlength
    have hall : cs.takeWhile (fun c => (asciiDigit? c).isSome) = cs :=
      (List.takeWhile_prefix _).eq_of_length (not_not.mp hlength)
    rw [hall] at h hplain hshort
    obtain ⟨hne, hzero⟩ := not_or.mp hplain
    refine ⟨⟨?_, takeWhile_eq_self.mp hall, ?_⟩, by omega, (Except.ok.inj h).symm⟩
    · rintro rfl
      exact hne rfl
    · intro hhead
      exact not_not.mp fun hlen => hzero ⟨hhead, hlen⟩
  · rintro ⟨hplain, hshort, rfl⟩
    have hne : ¬cs.isEmpty = true := fun h => hplain.ne_nil (List.isEmpty_iff.mp h)
    have hzero : ¬(cs.head? = some '0' ∧ cs.length ≠ 1) := fun h =>
      h.2 (hplain.length_of_zero h.1)
    unfold natural
    rw [takeWhile_eq_self.mpr hplain.subset, if_neg (not_or.mpr ⟨hne, hzero⟩),
      if_neg (by omega), if_neg (not_not.mpr rfl)]

/-- **The plain form of an integer**: plain digits, behind a minus where it is
negative, and no longer than a reader allows. A zero may have a minus too. -/
inductive PlainForm : List Char → Int → Prop where
  | natural {digits : List Char} (hplain : IsPlain digits) (hshort : digits.length ≤ maxLength) :
    PlainForm digits (ofDigits digits)
  | negative {digits : List Char} (hplain : IsPlain digits)
      (hshort : 1 + digits.length ≤ maxLength) :
    PlainForm ('-' :: digits) (-(ofDigits digits : Int))

theorem plain_eq_ok_iff {form : List Char} {n : Int} : plain form = .ok n ↔ PlainForm form n := by
  constructor
  · intro h
    unfold plain at h
    split at h
    · rename_i digits
      cases hnatural : natural 1 digits with
      | error fault =>
        rw [hnatural] at h
        cases h
      | ok m =>
        rw [hnatural] at h
        obtain ⟨hplain, hshort, rfl⟩ := natural_eq_ok_iff.mp hnatural
        cases h
        exact .negative hplain hshort
    · cases hnatural : natural 0 form with
      | error fault =>
        rw [hnatural] at h
        cases h
      | ok m =>
        rw [hnatural] at h
        obtain ⟨hplain, hshort, rfl⟩ := natural_eq_ok_iff.mp hnatural
        cases h
        exact .natural hplain (by omega)
  · intro h
    cases h with
    | natural hplain hshort =>
      rw [plain, natural_eq_ok_iff.mpr ⟨hplain, by omega, rfl⟩]
      · rfl
      · rintro rest rfl
        exact hplain.notMem (by decide) List.mem_cons_self
    | negative hplain hshort =>
      rw [plain, natural_eq_ok_iff.mpr ⟨hplain, hshort, rfl⟩]
      rfl

section PlainForm

variable {form digits : List Char} {n : Int}

theorem PlainForm.subset (h : PlainForm form n) : form ⊆ '-' :: digitChars := by
  cases h with
  | natural hplain _ => exact List.subset_cons_of_subset _ hplain.subset
  | negative hplain _ => exact List.cons_subset_cons _ hplain.subset

theorem PlainForm.notMem (h : PlainForm form n) {c : Char} (hc : c ∉ '-' :: digitChars) :
    c ∉ form :=
  fun hmem => hc (h.subset hmem)

theorem PlainForm.ne_nil (h : PlainForm form n) : form ≠ [] := by
  cases h with
  | natural hplain _ => exact hplain.ne_nil
  | negative _ _ => exact List.cons_ne_nil _ _

/-- A form that does not start with a minus starts with a digit. -/
theorem PlainForm.exists_head? (h : PlainForm form n) (hminus : form.head? ≠ some '-') :
    ∃ c ∈ form.head?, c ∈ digitChars := by
  cases h with
  | natural hplain _ =>
    exact ⟨_, List.head?_eq_some_head hplain.ne_nil, hplain.subset (List.head_mem hplain.ne_nil)⟩
  | negative _ _ => exact absurd rfl hminus

/-- A form ends with a digit. -/
theorem PlainForm.exists_getLast? (h : PlainForm form n) :
    ∃ c ∈ form.getLast?, c ∈ digitChars := by
  have hdigits {digits : List Char} (hplain : IsPlain digits) :
      ∃ c ∈ digits.getLast?, c ∈ digitChars :=
    ⟨_, List.getLast?_eq_some_getLast hplain.ne_nil,
      hplain.subset (List.getLast_mem hplain.ne_nil)⟩
  cases h with
  | natural hplain _ => exact hdigits hplain
  | negative hplain _ =>
    rw [List.getLast?_cons_of_ne_nil hplain.ne_nil]
    exact hdigits hplain

/-- The digits behind a minus are a plain form themselves. -/
theorem PlainForm.of_minus (h : PlainForm ('-' :: digits) n) : PlainForm digits (-n) := by
  cases h with
  | natural hplain _ => exact absurd List.mem_cons_self (hplain.notMem (by decide))
  | negative hplain hshort =>
    rw [Int.neg_neg]
    exact .natural hplain (by omega)

end PlainForm

/-! ## Groups -/

/-- **Characters set in groups**: an underscore may stand between any two of
them. -/
inductive Grouped : List Char → List Char → Prop where
  | last {c : Char} (hc : c ≠ '_') : Grouped [c] [c]
  | next {c : Char} {text kept : List Char} (hc : c ≠ '_') (rest : Grouped text kept) :
    Grouped (c :: text) (c :: kept)
  | gap {c : Char} {text kept : List Char} (hc : c ≠ '_') (rest : Grouped text kept) :
    Grouped (c :: '_' :: text) (c :: kept)

section Grouped

variable {text kept : List Char}

theorem Grouped.exists_cons (h : Grouped text kept) : ∃ c rest, text = c :: rest ∧ c ≠ '_' := by
  cases h with
  | last hc | next hc _ | gap hc _ => exact ⟨_, _, rfl, hc⟩

theorem Grouped.text_ne_nil (h : Grouped text kept) : text ≠ [] := by
  cases h <;> exact List.cons_ne_nil _ _

theorem Grouped.kept_ne_nil (h : Grouped text kept) : kept ≠ [] := by
  cases h <;> exact List.cons_ne_nil _ _

theorem Grouped.head?_eq (h : Grouped text kept) : text.head? = kept.head? := by
  cases h <;> rfl

theorem Grouped.getLast?_eq (h : Grouped text kept) : text.getLast? = kept.getLast? := by
  induction h with
  | last _ => rfl
  | next _ rest ih =>
    rw [List.getLast?_cons_of_ne_nil rest.text_ne_nil,
      List.getLast?_cons_of_ne_nil rest.kept_ne_nil, ih]
  | gap _ rest ih =>
    rw [List.getLast?_cons_cons, List.getLast?_cons_of_ne_nil rest.text_ne_nil,
      List.getLast?_cons_of_ne_nil rest.kept_ne_nil, ih]

theorem Grouped.filter_eq (h : Grouped text kept) : text.filter (· ≠ '_') = kept := by
  induction h with
  | last hc => simp [hc]
  | next hc rest ih => simp [hc, ← ih]
  | gap hc rest ih => simp [hc, ← ih]

/-- Whether an underscore stands where none may: at an end, or beside another. -/
def Misplaced (cs : List Char) : Prop :=
  cs.head? = some '_' ∨ cs.getLast? = some '_' ∨ hasDoubleUnderscore cs = true

theorem misplaced_cons {c d : Char} (hc : c ≠ '_') (hd : d ≠ '_') (text : List Char) :
    Misplaced (c :: d :: text) ↔ Misplaced (d :: text) := by
  unfold Misplaced
  rw [List.getLast?_cons_cons]
  simp [hasDoubleUnderscore, hc, hd]

theorem misplaced_gap {c : Char} (hc : c ≠ '_') (hne : text ≠ []) :
    Misplaced (c :: '_' :: text) ↔ Misplaced text := by
  obtain ⟨d, text, rfl⟩ := List.exists_cons_of_ne_nil hne
  unfold Misplaced
  rw [List.getLast?_cons_cons, List.getLast?_cons_cons]
  by_cases hd : d = '_' <;> simp [hasDoubleUnderscore, hc, hd]

theorem Grouped.not_misplaced (h : Grouped text kept) : ¬Misplaced text := by
  induction h with
  | last hc => simp [Misplaced, hasDoubleUnderscore, hc]
  | next hc rest ih =>
    obtain ⟨d, text, rfl, hd⟩ := rest.exists_cons
    rwa [misplaced_cons hc hd]
  | gap hc rest ih => rwa [misplaced_gap hc rest.text_ne_nil]

/-- **Characters whose underscores are in place are set in groups.** -/
theorem grouped_filter : ∀ {text : List Char}, text ≠ [] → ¬Misplaced text →
    Grouped text (text.filter (· ≠ '_'))
  | [], hne, _ => absurd rfl hne
  | [c], _, h => by
    have hc : c ≠ '_' := fun hc => h (.inl (congrArg some hc))
    rw [List.filter_cons_of_pos (by simp [hc]), List.filter_nil]
    exact .last hc
  | c :: d :: text, _, h => by
    have hc : c ≠ '_' := fun hc => h (.inl (congrArg some hc))
    rw [List.filter_cons_of_pos (by simp [hc])]
    by_cases hd : d = '_'
    · subst hd
      have hne : text ≠ [] := by
        rintro rfl
        exact h (.inr (.inl rfl))
      rw [List.filter_cons_of_neg (by simp)]
      exact .gap hc (grouped_filter hne ((misplaced_gap hc hne).not.mp h))
    · exact .next hc
        (grouped_filter (List.cons_ne_nil d text) ((misplaced_cons hc hd text).not.mp h))

theorem mem_of_hasDoubleUnderscore (h : hasDoubleUnderscore text = true) : '_' ∈ text := by
  fun_induction hasDoubleUnderscore text with
  | case1 rest => exact List.mem_cons_self
  | case2 c rest _ ih => exact List.mem_cons_of_mem c (ih h)
  | case3 => cases h

theorem Misplaced.mem (h : Misplaced text) : '_' ∈ text := by
  rcases h with h | h | h
  · exact List.mem_of_head? h
  · exact List.mem_of_getLast? h
  · exact mem_of_hasDoubleUnderscore h

/-- **A form is found again in its groups**, and in nothing else: underscores that are
out of place stay, and a form has none. -/
theorem withoutUnderscores_eq_iff {form : List Char} {n : Int} (h : PlainForm form n) :
    withoutUnderscores text = form ↔ Grouped text form := by
  constructor
  · intro hform
    unfold withoutUnderscores at hform
    split at hform
    · rename_i hmisplaced
      exact absurd (hform ▸ Misplaced.mem hmisplaced) (h.notMem (by decide))
    · rename_i hplaced
      rw [← hform]
      refine grouped_filter ?_ hplaced
      rintro rfl
      exact h.ne_nil hform.symm
  · intro hgrouped
    have hplaced : ¬(text.head? = some '_' ∨ text.getLast? = some '_'
      ∨ hasDoubleUnderscore text = true) := hgrouped.not_misplaced
    unfold withoutUnderscores
    rw [if_neg hplaced, hgrouped.filter_eq]

end Grouped

/-! ## Fractions -/

/-- **A fraction of zeros**, or none. -/
inductive ZeroFraction : List Char → Prop where
  | none : ZeroFraction []
  | zeros {zeros : List Char} (hne : zeros ≠ []) (hall : ∀ c ∈ zeros, c = '0') :
    ZeroFraction ('.' :: zeros)

theorem exists_fraction (cs : List Char) :
    ∃ fraction, ZeroFraction fraction ∧ cs = withoutFraction cs ++ fraction := by
  have hwhole : ∃ fraction, ZeroFraction fraction ∧ cs = cs ++ fraction :=
    ⟨[], .none, (List.append_nil cs).symm⟩
  unfold withoutFraction
  split
  · rename_i zeros hzeros
    split
    · rename_i hfraction
      rw [Bool.and_eq_true] at hfraction
      refine ⟨'.' :: zeros, .zeros ?_ ?_, ?_⟩
      · rintro rfl
        cases hfraction.1
      · exact fun c hc => of_decide_eq_true (List.all_eq_true.mp hfraction.2 c hc)
      · rw [← hzeros, List.takeWhile_append_dropWhile]
    · exact hwhole
  · exact hwhole

theorem withoutFraction_append {number fraction : List Char} (hpoint : '.' ∉ number)
    (h : ZeroFraction fraction) : withoutFraction (number ++ fraction) = number := by
  have hkept : ∀ c ∈ number, decide (c ≠ '.') = true := fun c hc =>
    decide_eq_true fun hdot => hpoint (hdot ▸ hc)
  unfold withoutFraction
  rw [List.dropWhile_append_of_pos hkept, List.takeWhile_append_of_pos hkept]
  cases h with
  | none =>
    rw [List.append_nil, List.takeWhile_nil, List.append_nil]
    rfl
  | @zeros zeros hne hall =>
    have hzeros : (!zeros.isEmpty && zeros.all (· = '0')) = true := by
      simpa using ⟨hne, hall⟩
    show (if (!zeros.isEmpty && zeros.all (· = '0')) = true then number ++ [] else _) = _
    rw [if_pos hzeros, List.append_nil]

/-- What is left once a fraction and the underscores are taken off. -/
def tidied (cs : List Char) : List Char := withoutUnderscores (withoutFraction cs)

theorem tidied_eq_iff {form cs : List Char} {n : Int} (h : PlainForm form n) :
    tidied cs = form
      ↔ ∃ number fraction, ZeroFraction fraction ∧ cs = number ++ fraction
        ∧ Grouped number form := by
  constructor
  · intro htidied
    obtain ⟨fraction, hfraction, hcs⟩ := exists_fraction cs
    exact ⟨withoutFraction cs, fraction, hfraction, hcs, (withoutUnderscores_eq_iff h).mp htidied⟩
  · rintro ⟨number, fraction, hfraction, rfl, hnumber⟩
    have hpoint : '.' ∉ number := by
      intro hmem
      have hform : '.' ∈ form := by
        rw [← hnumber.filter_eq]
        exact List.mem_filter.mpr ⟨hmem, rfl⟩
      exact h.notMem (by decide) hform
    unfold tidied
    rw [withoutFraction_append hpoint hfraction]
    exact (withoutUnderscores_eq_iff h).mpr hnumber

/-! ## Zeros in front -/

/-- **Zeros in front** of a number, with any underscores behind the first of
them. -/
inductive FrontZeros : List Char → Prop where
  | none : FrontZeros []
  | some {rest : List Char} (hall : ∀ c ∈ rest, c = '0' ∨ c = '_') : FrontZeros ('0' :: rest)

/-- **A number with no more zeros in front** of it. Where it was zeros and
underscores only, the last of them is kept. -/
inductive Stripped : List Char → Prop where
  | minus (rest : List Char) : Stripped ('-' :: rest)
  | digit {c : Char} (hdigit : c ∈ digitChars) (hc : c ≠ '0') (rest : List Char) :
    Stripped (c :: rest)
  | last {c : Char} (hc : c = '0' ∨ c = '_') {rest : List Char}
      (hrest : rest = [] ∨ rest.head? = some '.') : Stripped (c :: rest)

theorem exists_zeros_of_afterZeros? {last : Char} {cs out : List Char}
    (h : afterZeros? last cs = some out) (hlast : last = '0' ∨ last = '_') :
    ∃ zeros, (∀ c ∈ zeros, c = '0' ∨ c = '_') ∧ last :: cs = zeros ++ out ∧ Stripped out := by
  fun_induction afterZeros? last cs with
  | case1 last =>
    cases h
    exact ⟨[], List.forall_mem_nil _, rfl, .last hlast (.inl rfl)⟩
  | case2 last c rest hc ih =>
    obtain ⟨zeros, hzeros, heq, hout⟩ := ih h hc
    exact ⟨last :: zeros, List.forall_mem_cons.mpr ⟨hlast, hzeros⟩,
      congrArg (last :: ·) heq, hout⟩
  | case3 last rest =>
    cases h
    exact ⟨[], List.forall_mem_nil _, rfl, .last hlast (.inr rfl)⟩
  | case4 last c rest hzero _ hc =>
    cases h
    refine ⟨[last], List.forall_mem_singleton.mpr hlast, rfl, ?_⟩
    rcases hc with rfl | hc
    · exact .minus rest
    · exact .digit (isSome_asciiDigit?_iff.mp hc) (not_or.mp hzero).1 rest
  | case5 => cases h

theorem exists_zeros_of_withoutZeros? {cs out : List Char} (h : withoutZeros? cs = some out) :
    ∃ zeros, FrontZeros zeros ∧ cs = zeros ++ out ∧ Stripped out := by
  unfold withoutZeros? at h
  split at h
  · cases h
  rename_i c rest
  split at h
  · rename_i hc
    subst hc
    obtain ⟨zeros, hzeros, heq, hout⟩ := exists_zeros_of_afterZeros? h (.inl rfl)
    refine ⟨zeros, ?_, heq, hout⟩
    cases zeros with
    | nil => exact .none
    | cons c zeros =>
      cases (List.cons.inj heq).1
      exact .some (List.forall_mem_cons.mp hzeros).2
  · rename_i hzero
    split at h
    · rename_i hc
      cases h
      refine ⟨[], .none, rfl, ?_⟩
      rcases hc with rfl | hc
      · exact .minus rest
      · exact .digit (isSome_asciiDigit?_iff.mp hc) hzero rest
    · cases h

theorem afterZeros?_append {zeros out : List Char} (hzeros : ∀ c ∈ zeros, c = '0' ∨ c = '_')
    (h : Stripped out) (hhead : out.head? ≠ some '_') (last : Char) :
    afterZeros? last (zeros ++ out) = some out := by
  induction zeros generalizing last with
  | nil =>
    cases h with
    | minus rest => rfl
    | @digit c hdigit hc rest =>
      have hunderscore : c ≠ '_' := ne_of_mem_of_not_mem hdigit (by decide)
      have hpoint : c ≠ '.' := ne_of_mem_of_not_mem hdigit (by decide)
      rw [List.nil_append, afterZeros?, if_neg (not_or.mpr ⟨hc, hunderscore⟩), if_neg hpoint,
        if_pos (.inr (isSome_asciiDigit?_iff.mpr hdigit))]
    | @last c hc rest hrest =>
      obtain rfl | rfl := hc
      · rw [List.nil_append, afterZeros?, if_pos (.inl rfl)]
        rcases hrest with rfl | hrest
        · rfl
        · obtain ⟨rest, rfl⟩ := List.head?_eq_some_iff.mp hrest
          rfl
      · exact absurd rfl hhead
  | cons c zeros ih =>
    obtain ⟨hc, hzeros⟩ := List.forall_mem_cons.mp hzeros
    rw [List.cons_append, afterZeros?, if_pos hc]
    exact ih hzeros c

theorem withoutZeros?_append {zeros out : List Char} (hzeros : FrontZeros zeros)
    (h : Stripped out) (hhead : out.head? ≠ some '_') :
    withoutZeros? (zeros ++ out) = some out := by
  cases hzeros with
  | some hall =>
    rw [List.cons_append, withoutZeros?, if_pos rfl]
    exact afterZeros?_append hall h hhead '0'
  | none =>
    cases h with
    | minus rest => rfl
    | @digit c hdigit hc rest =>
      rw [List.nil_append, withoutZeros?, if_neg hc,
        if_pos (.inr (isSome_asciiDigit?_iff.mpr hdigit))]
    | @last c hc rest hrest =>
      obtain rfl | rfl := hc
      · exact afterZeros?_append (List.forall_mem_nil _) (.last (.inl rfl) hrest) hhead '0'
      · exact absurd rfl hhead

section Numbers

variable {form number fraction : List Char} {n : Int}

/-- A form in its groups has nothing more to take off in front. -/
theorem stripped_append (h : PlainForm form n) (hnumber : Grouped number form)
    (hfraction : ZeroFraction fraction) : Stripped (number ++ fraction) := by
  obtain ⟨c, text, rfl, -⟩ := hnumber.exists_cons
  have hhead : form.head? = some c := hnumber.head?_eq.symm
  cases h with
  | negative _ _ =>
    cases hhead
    exact .minus _
  | natural hplain _ =>
    by_cases hc : c = '0'
    · subst hc
      -- the zero is the only digit, so what follows it is the fraction
      obtain ⟨kept, rfl⟩ := List.head?_eq_some_iff.mp hhead
      have hkept : kept = [] :=
        List.length_eq_zero_iff.mp (Nat.succ.inj (hplain.length_of_zero hhead))
      subst hkept
      have htext : text = [] := by
        cases hnumber with
        | last => rfl
        | next _ rest | gap _ rest => exact absurd rfl rest.kept_ne_nil
      subst htext
      refine .last (.inl rfl) ?_
      cases hfraction with
      | none => exact .inl rfl
      | zeros _ _ => exact .inr rfl
    · exact .digit (hplain.subset (List.mem_of_head? hhead)) hc _

theorem withoutZeros?_number (h : PlainForm form n) {zeros : List Char} (hzeros : FrontZeros zeros)
    (hnumber : Grouped number form) (hfraction : ZeroFraction fraction) :
    withoutZeros? (zeros ++ (number ++ fraction)) = some (number ++ fraction) := by
  have hhead : (number ++ fraction).head? ≠ some '_' := by
    obtain ⟨c, text, rfl, hc⟩ := hnumber.exists_cons
    exact fun hunderscore => hc (Option.some.inj hunderscore)
  exact withoutZeros?_append hzeros (stripped_append h hnumber hfraction) hhead

/-- **A form is found behind zeros** and in front of a fraction. -/
theorem stripped_eq_iff (h : PlainForm form n) {cs : List Char} :
    (withoutZeros? cs).map tidied = some form
      ↔ ∃ zeros number fraction, FrontZeros zeros ∧ ZeroFraction fraction
        ∧ cs = zeros ++ (number ++ fraction) ∧ Grouped number form := by
  constructor
  · intro hcs
    obtain ⟨out, hout, htidied⟩ := Option.map_eq_some_iff.mp hcs
    obtain ⟨zeros, hzeros, hsplit, -⟩ := exists_zeros_of_withoutZeros? hout
    obtain ⟨number, fraction, hfraction, rfl, hnumber⟩ := (tidied_eq_iff h).mp htidied
    exact ⟨zeros, number, fraction, hzeros, hfraction, hsplit, hnumber⟩
  · rintro ⟨zeros, number, fraction, hzeros, hfraction, rfl, hnumber⟩
    rw [withoutZeros?_number h hzeros hnumber hfraction, Option.map_some,
      (tidied_eq_iff h).mpr ⟨number, fraction, hfraction, rfl, hnumber⟩]

/-- **A minus in front has no underscore behind it**: zeros leave an underscore only
where no digit follows. -/
theorem grouped_of_minus (h : PlainForm form n) (hstripped : Stripped (number ++ fraction))
    (hnumber : Grouped ('-' :: number) form) :
    ∃ digits, form = '-' :: digits ∧ Grouped number digits := by
  cases hnumber with
  | last _ =>
    cases h with
    | natural hplain _ => exact absurd List.mem_cons_self (hplain.notMem (by decide))
    | negative hplain _ => exact absurd rfl hplain.ne_nil
  | next _ rest => exact ⟨_, rfl, rest⟩
  | @gap _ text kept _ rest =>
    obtain ⟨d, text, rfl, -⟩ := rest.exists_cons
    have hd : d ∈ kept := List.mem_of_head? rest.head?_eq.symm
    cases hstripped with
    | digit hdigit _ _ => exact absurd hdigit (by decide)
    | last _ hrest =>
      obtain hnil | hpoint := hrest
      · exact absurd hnil (List.cons_ne_nil _ _)
      · cases hpoint
        exact absurd (List.mem_cons_of_mem '-' hd) (h.notMem (by decide))

/-- The same behind a minus, which is part of the form that is found. -/
theorem stripped_minus_eq_iff (h : PlainForm form n) {cs : List Char} :
    (withoutZeros? cs).map (fun out => tidied ('-' :: out)) = some form
      ↔ ∃ zeros number fraction digits, FrontZeros zeros ∧ ZeroFraction fraction
        ∧ cs = zeros ++ (number ++ fraction) ∧ form = '-' :: digits ∧ Grouped number digits := by
  constructor
  · intro hcs
    obtain ⟨out, hout, htidied⟩ := Option.map_eq_some_iff.mp hcs
    obtain ⟨zeros, hzeros, hsplit, hstripped⟩ := exists_zeros_of_withoutZeros? hout
    obtain ⟨number, fraction, hfraction, hnumber, hgrouped⟩ := (tidied_eq_iff h).mp htidied
    obtain ⟨c, number, rfl, -⟩ := hgrouped.exists_cons
    cases hnumber
    obtain ⟨digits, hform, hdigits⟩ := grouped_of_minus h hstripped hgrouped
    exact ⟨zeros, number, fraction, digits, hzeros, hfraction, hsplit, hform, hdigits⟩
  · rintro ⟨zeros, number, fraction, digits, hzeros, hfraction, rfl, rfl, hnumber⟩
    have htidied : tidied ('-' :: (number ++ fraction)) = '-' :: digits :=
      (tidied_eq_iff h).mpr
        ⟨'-' :: number, fraction, hfraction, rfl, .next (by decide) hnumber⟩
    rw [withoutZeros?_number h.of_minus hzeros hnumber hfraction, Option.map_some, htidied]

/-! ## Signs -/

/-- **A form with a sign and zeros in front**: a plus or nothing and zeros, or a minus
and zeros. The minus of a form that has one may stand behind the zeros instead. -/
inductive Signed : List Char → List Char → Prop where
  | unsigned {plus zeros number form : List Char} (hplus : plus = [] ∨ plus = ['+'])
      (hzeros : FrontZeros zeros) (hnumber : Grouped number form)
      (hminus : form.head? = some '-' → zeros ≠ []) : Signed (plus ++ (zeros ++ number)) form
  | minus {zeros number digits : List Char} (hzeros : FrontZeros zeros)
      (hnumber : Grouped number digits) : Signed ('-' :: (zeros ++ number)) ('-' :: digits)

theorem cleaned?_of_plus {cs rest : List Char} (hcs : trimmed isWhiteSpace cs = '+' :: rest)
    (hrest : rest.head? ≠ some '-') : cleaned? cs = (withoutZeros? rest).map tidied := by
  unfold cleaned?
  rw [hcs]
  dsimp only
  split
  · rename_i htail
    cases htail
    exact absurd rfl hrest
  · rename_i htail
    cases htail
    rfl
  · rename_i htail
    cases htail
  · rename_i hplus _
    exact absurd rfl (hplus rest)

theorem cleaned?_of_plus_minus {cs rest : List Char}
    (hcs : trimmed isWhiteSpace cs = '+' :: '-' :: rest) : cleaned? cs = none := by
  unfold cleaned?
  rw [hcs]
  rfl

theorem cleaned?_of_minus {cs rest : List Char} (hcs : trimmed isWhiteSpace cs = '-' :: rest) :
    cleaned? cs = (withoutZeros? rest).map fun out => tidied ('-' :: out) := by
  unfold cleaned?
  rw [hcs]
  simp only [Option.map_map]
  rfl

theorem cleaned?_of_unsigned {cs core : List Char} (hcs : trimmed isWhiteSpace cs = core)
    (hplus : core.head? ≠ some '+') (hminus : core.head? ≠ some '-') :
    cleaned? cs = (withoutZeros? core).map tidied := by
  unfold cleaned?
  rw [hcs]
  dsimp only
  split
  · exact absurd rfl hplus
  · exact absurd rfl hplus
  · exact absurd rfl hminus
  · rfl

/-- A number that has no minus in front starts with a digit. -/
theorem exists_digit_cons (h : PlainForm form n) {zeros : List Char} (hzeros : FrontZeros zeros)
    (hnumber : Grouped number form) (hminus : form.head? = some '-' → zeros ≠ []) :
    ∃ c rest, zeros ++ number = c :: rest ∧ c ∈ digitChars := by
  cases hzeros with
  | some _ => exact ⟨'0', _, rfl, by decide⟩
  | none =>
    obtain ⟨c, hc, hdigit⟩ := h.exists_head? fun hhead => hminus hhead rfl
    rw [← hnumber.head?_eq] at hc
    obtain ⟨rest, rfl⟩ := List.head?_eq_some_iff.mp hc
    exact ⟨c, rest, rfl, hdigit⟩

/-- **What a form is found in is the form with a sign**, and a fraction behind it. -/
theorem exists_signed (h : PlainForm form n) {cs core : List Char}
    (hcs : trimmed isWhiteSpace cs = core) (hform : cleaned? cs = some form) :
    ∃ number fraction, core = number ++ fraction ∧ ZeroFraction fraction
      ∧ Signed number form := by
  -- a minus that is not in front stands behind zeros
  have hbehind {rest zeros number fraction : List Char} (hrest : rest.head? ≠ some '-')
      (hsplit : rest = zeros ++ (number ++ fraction)) (hnumber : Grouped number form) :
      form.head? = some '-' → zeros ≠ [] := by
    rintro hhead rfl
    obtain ⟨c, text, rfl, -⟩ := hnumber.exists_cons
    rw [← hnumber.head?_eq] at hhead
    exact hrest (hsplit ▸ hhead)
  by_cases hplus : core.head? = some '+'
  · obtain ⟨rest, rfl⟩ := List.head?_eq_some_iff.mp hplus
    by_cases hminus : rest.head? = some '-'
    · obtain ⟨rest, rfl⟩ := List.head?_eq_some_iff.mp hminus
      rw [cleaned?_of_plus_minus hcs] at hform
      cases hform
    · rw [cleaned?_of_plus hcs hminus, stripped_eq_iff h] at hform
      obtain ⟨zeros, number, fraction, hzeros, hfraction, hsplit, hnumber⟩ := hform
      refine ⟨['+'] ++ (zeros ++ number), fraction, ?_, hfraction,
        .unsigned (.inr rfl) hzeros hnumber (hbehind hminus hsplit hnumber)⟩
      rw [hsplit, List.append_assoc, List.append_assoc]
      rfl
  by_cases hminus : core.head? = some '-'
  · obtain ⟨rest, rfl⟩ := List.head?_eq_some_iff.mp hminus
    rw [cleaned?_of_minus hcs, stripped_minus_eq_iff h] at hform
    obtain ⟨zeros, number, fraction, digits, hzeros, hfraction, rfl, rfl, hnumber⟩ := hform
    refine ⟨'-' :: (zeros ++ number), fraction, ?_, hfraction, .minus hzeros hnumber⟩
    rw [List.cons_append, List.append_assoc]
  · rw [cleaned?_of_unsigned hcs hplus hminus, stripped_eq_iff h] at hform
    obtain ⟨zeros, number, fraction, hzeros, hfraction, hsplit, hnumber⟩ := hform
    refine ⟨[] ++ (zeros ++ number), fraction, ?_, hfraction,
      .unsigned (.inl rfl) hzeros hnumber (hbehind hminus hsplit hnumber)⟩
    rw [hsplit, List.nil_append, List.append_assoc]

/-- **A form with a sign is found.** -/
theorem Signed.cleaned?_eq (h : PlainForm form n) (hnumber : Signed number form)
    (hfraction : ZeroFraction fraction) {cs : List Char}
    (hcs : trimmed isWhiteSpace cs = number ++ fraction) : cleaned? cs = some form := by
  cases hnumber with
  | minus hzeros hnumber =>
    rw [List.cons_append, List.append_assoc] at hcs
    rw [cleaned?_of_minus hcs, stripped_minus_eq_iff h]
    exact ⟨_, _, fraction, _, hzeros, hfraction, rfl, rfl, hnumber⟩
  | @unsigned plus zeros number form hplus hzeros hnumber hminus =>
    obtain ⟨c, rest, heq, hc⟩ := exists_digit_cons h hzeros hnumber hminus
    have hfront {d : Char} (hd : d ∉ digitChars) :
        (zeros ++ (number ++ fraction)).head? ≠ some d := by
      rw [← List.append_assoc, heq]
      exact fun hhead => hd (Option.some.inj hhead ▸ hc)
    have hform := (stripped_eq_iff h).mpr
      ⟨zeros, number, fraction, hzeros, hfraction, rfl, hnumber⟩
    rw [List.append_assoc, List.append_assoc] at hcs
    rcases hplus with rfl | rfl
    · rw [cleaned?_of_unsigned hcs (hfront (by decide)) (hfront (by decide))]
      exact hform
    · rw [cleaned?_of_plus hcs (hfront (by decide))]
      exact hform

theorem Signed.exists_head? (h : PlainForm form n) (hnumber : Signed number form) :
    ∃ c ∈ number.head?, c ∈ '+' :: '-' :: digitChars := by
  cases hnumber with
  | minus _ _ => exact ⟨'-', rfl, by decide⟩
  | unsigned hplus hzeros hnumber hminus =>
    rcases hplus with rfl | rfl
    · obtain ⟨c, rest, heq, hc⟩ := exists_digit_cons h hzeros hnumber hminus
      rw [List.nil_append, heq]
      exact ⟨c, rfl, List.mem_cons_of_mem _ (List.mem_cons_of_mem _ hc)⟩
    · exact ⟨'+', rfl, by decide⟩

theorem Signed.exists_getLast? (h : PlainForm form n) (hnumber : Signed number form) :
    ∃ c ∈ number.getLast?, c ∈ digitChars := by
  cases hnumber with
  | minus _ hnumber =>
    rw [← List.cons_append, List.getLast?_append_of_ne_nil _ hnumber.text_ne_nil,
      hnumber.getLast?_eq]
    exact h.of_minus.exists_getLast?
  | unsigned _ _ hnumber _ =>
    rw [← List.append_assoc, List.getLast?_append_of_ne_nil _ hnumber.text_ne_nil,
      hnumber.getLast?_eq]
    exact h.exists_getLast?

theorem exists_getLast?_append (hnumber : ∃ c ∈ number.getLast?, c ∈ digitChars)
    (hfraction : ZeroFraction fraction) : ∃ c ∈ (number ++ fraction).getLast?, c ∈ digitChars := by
  cases hfraction with
  | none =>
    rw [List.append_nil]
    exact hnumber
  | @zeros zeros hne hall =>
    rw [List.getLast?_append_of_ne_nil _ (List.cons_ne_nil _ _), List.getLast?_cons_of_ne_nil hne]
    refine ⟨zeros.getLast hne, List.getLast?_eq_some_getLast hne, ?_⟩
    rw [hall _ (List.getLast_mem hne)]
    decide

/-- **Blanks around a number are trimmed off**, and nothing of the number. -/
theorem Signed.trimmed_eq (h : PlainForm form n) (hnumber : Signed number form)
    (hfraction : ZeroFraction fraction) {before after : List Char}
    (hblanks : ∀ c ∈ before ++ after, isWhiteSpace c = true) :
    trimmed isWhiteSpace (before ++ (number ++ fraction ++ after)) = number ++ fraction := by
  have hall : ('+' :: '-' :: digitChars).all (fun c => !isWhiteSpace c) = true := by decide
  have hfree (c : Char) (hc : c ∈ '+' :: '-' :: digitChars) : isWhiteSpace c = false := by
    simpa using List.all_eq_true.mp hall c hc
  obtain ⟨first, hfirst, hfirst_mem⟩ := hnumber.exists_head? h
  obtain ⟨last, hlast, hlast_mem⟩ :=
    exists_getLast?_append (hnumber.exists_getLast? h) hfraction
  refine trimmed_append hblanks ⟨first, ?_, hfree first hfirst_mem⟩
    ⟨last, hlast, hfree last (List.mem_cons_of_mem _ (List.mem_cons_of_mem _ hlast_mem))⟩
  rw [List.head?_append, hfirst]
  rfl

end Numbers

/-! ## The texts of an integer -/

/-- **A text that stands for an integer**: a plain form with a sign and zeros in front,
a fraction of zeros behind and blanks around. -/
def Writes (s : String) (n : Int) : Prop :=
  ∃ before number fraction after form, (∀ c ∈ before ++ after, isWhiteSpace c = true)
    ∧ s.toList = before ++ (number ++ fraction ++ after)
    ∧ Signed number form ∧ ZeroFraction fraction ∧ PlainForm form n

/-- **A text is read as an integer exactly if it stands for it.** -/
theorem read_eq_ok_iff {s : String} {n : Int} : read s = .ok n ↔ Writes s n := by
  constructor
  · intro h
    unfold read at h
    split at h
    · rename_i form hform
      have hplain := plain_eq_ok_iff.mp h
      obtain ⟨number, fraction, hcore, hfraction, hnumber⟩ := exists_signed hplain rfl hform
      obtain ⟨before, after, hblanks, hs⟩ := exists_trimmed isWhiteSpace s.toList
      rw [hcore] at hs
      exact ⟨before, number, fraction, after, form, hblanks, hs, hnumber, hfraction, hplain⟩
    · cases h
  · rintro ⟨before, number, fraction, after, form, hblanks, hs, hnumber, hfraction, hplain⟩
    unfold read
    rw [hs, hnumber.cleaned?_eq hplain hfraction (hnumber.trimmed_eq hplain hfraction hblanks)]
    exact plain_eq_ok_iff.mpr hplain

example :
    read " +00_1_2.0 " = .ok 12 ∧ read "0-_5" = .ok (-5) ∧ read "-_5" = .error .unreadable := by
  decide

end IntegerText

end RangeReader

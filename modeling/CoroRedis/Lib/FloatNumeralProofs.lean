import Mathlib.Algebra.Field.Rat
import CoroRedis.Lib.NumeralProofs

/-! # Floating-point numerals at the start of a text

    Digits with at most one point among them, and perhaps an exponent.
    `Radix` says which digits, which exponent letters and what one unit of the
    exponent multiplies by, so that decimal and hexadecimal numerals are two
    radices; `Radix.Numeral` is the grammar and `Radix.read` the reader, which
    ignores what stands behind the numeral.

    `read_eq_some` says that the reader takes the longest initial part of the
    text that the grammar has. -/

namespace FloatNumerals

open Numerals

/-- The digits of a numeral, its point and its exponent. -/
structure Radix (α : Type) where
  base : ℕ
  digit : α → Bool
  digitVal : α → ℕ
  point : α
  /-- The letters in front of an exponent. -/
  mark : α → Bool
  /-- What one unit of the exponent multiplies by. -/
  expBase : ℕ
  point_digit : digit point = false
  mark_digit : ∀ c, mark c = true → digit c = false
  mark_point : mark point = false

namespace Radix

variable {α : Type} (A : Alphabet α) (R : Radix α)

/-- The number a row of digits stands for. -/
def value (ds : List α) : ℕ :=
  ds.foldl (fun acc c => R.base * acc + R.digitVal c) 0

/-- The number with these digits in front of the point and behind it. -/
def number (ip fp : List α) (e : ℤ) : ℚ :=
  (R.value (ip ++ fp) : ℚ) / (R.base : ℚ) ^ fp.length * (R.expBase : ℚ) ^ e

/-! ## The grammar -/

/-- A point with digits behind it, or nothing. -/
inductive Fraction : List α → List α → Prop where
  | none : Fraction [] []
  | point {fp : List α} (hfp : ∀ c ∈ fp, R.digit c = true) :
      Fraction (R.point :: fp) fp

/-- An exponent, or nothing, and its value. -/
inductive Exponent : List α → ℤ → Prop where
  | none : Exponent [] 0
  | mark {c : α} {sign : List α} {neg : Bool} {ds : List α}
      (hc : R.mark c = true) (hsign : A.Sign sign neg) (hne : ds ≠ [])
      (hds : ∀ d ∈ ds, A.digit d = true) :
      Exponent (c :: (sign ++ ds))
        (if neg then -(A.value ds : ℤ) else (A.value ds : ℤ))

/-- The text is a numeral for `q`: digits, at least one and perhaps with a
    point among them, and perhaps an exponent. -/
def Numeral (t : List α) (q : ℚ) : Prop :=
  ∃ ip frac fp exp e, t = ip ++ (frac ++ exp)
    ∧ (∀ c ∈ ip, R.digit c = true) ∧ R.Fraction frac fp ∧ ip ++ fp ≠ []
    ∧ R.Exponent A exp e ∧ q = R.number ip fp e

/-- The longest initial part of the text that is a numeral is one for `q`. -/
def Starts (t : List α) (q : ℚ) : Prop :=
  ∃ num, num <+: t ∧ R.Numeral A num q
    ∧ ∀ num' q', num' <+: t → R.Numeral A num' q' → num'.length ≤ num.length

/-! ## The reader -/

variable [DecidableEq α]

/-- The digits behind a point, and what is left of the text. -/
def readFraction : List α → List α × List α
  | [] => ([], [])
  | c :: u =>
      if c = R.point then (u.takeWhile R.digit, u.dropWhile R.digit)
      else ([], c :: u)

/-- The exponent; without digits there is none. -/
def readExponent : List α → ℤ
  | [] => 0
  | c :: u =>
      if R.mark c then
        let (neg, u) := A.splitSign u
        let v : ℤ := A.value (u.takeWhile A.digit)
        if neg then -v else v
      else 0

/-- The number a text starts with. -/
def read (t : List α) : Option ℚ :=
  let ip := t.takeWhile R.digit
  let (fp, u) := R.readFraction (t.dropWhile R.digit)
  if ip ++ fp = [] then none
  else some (R.number ip fp (R.readExponent A u))

/-! ## Rows of digits -/

omit [DecidableEq α] in
/-- Of two rows at the start of a text, the one that does not go on is the
    longer one. -/
theorem row_cases {p : α → Bool} {xs xs' w w' : List α}
    (h : xs' ++ w' = xs ++ w) (hxs : ∀ c ∈ xs, p c = true)
    (hxs' : ∀ c ∈ xs', p c = true) (hw : ∀ c ∈ w.head?, p c = false) :
    (xs' = xs ∧ w' = w)
    ∨ (xs'.length < xs.length ∧ ∃ c ∈ w'.head?, p c = true) := by
  rcases List.append_eq_append_iff.mp h with ⟨zs, rfl, rfl⟩ | ⟨zs, rfl, rfl⟩
  · cases zs with
    | nil => exact Or.inl ⟨(List.append_nil _).symm, rfl⟩
    | cons c zs =>
        refine Or.inr ⟨by simp, c, by simp, hxs c ?_⟩
        simp
  · cases zs with
    | nil => exact Or.inl ⟨List.append_nil _, rfl⟩
    | cons c zs =>
        have hno : p c = false := hw c rfl
        rw [hxs' c (by simp)] at hno
        exact nomatch hno

omit [DecidableEq α] in
/-- What stands in front of a symbol it cannot start with is nothing. -/
theorem nil_of_head {p : α → Bool} {xs ys : List α} {c : α} {b : Bool}
    (hxs : ∀ d ∈ xs.head?, p d = !b) (hc : c ∈ (xs ++ ys).head?)
    (hp : p c = b) : xs = [] := by
  cases xs with
  | nil => rfl
  | cons d tl =>
      obtain rfl := Option.some.inj hc
      have hd := hxs d rfl
      rw [hp] at hd
      exact absurd hd (by simp)

/-! ## Exponents -/

/-- Behind its letter an exponent has the sign that the reader splits off, and
    its digits. -/
theorem split_of_exponent {sign ds rest : List α} {neg : Bool} {t : List α}
    (hsign : A.Sign sign neg) (hne : ds ≠ [])
    (hds : ∀ d ∈ ds, A.digit d = true) (ht : t = sign ++ (ds ++ rest)) :
    (A.splitSign t).2 = ds ++ rest := by
  obtain ⟨d, tl, rfl⟩ := List.exists_cons_of_ne_nil hne
  rw [ht, List.cons_append,
    A.splitSign_sign hsign (hds d List.mem_cons_self)]

/-- The reader reads a whole exponent. -/
theorem readExponent_exponent {exp : List α} {e : ℤ} (h : R.Exponent A exp e) :
    R.readExponent A exp = e := by
  cases h with
  | none => rfl
  | @mark c sign neg ds hc hsign hne hds =>
      obtain ⟨d, tl, rfl⟩ := List.exists_cons_of_ne_nil hne
      have hd : A.digit d = true := hds d List.mem_cons_self
      have htake : (d :: tl).takeWhile A.digit = d :: tl :=
        List.takeWhile_eq_self_iff.mpr hds
      rw [readExponent, if_pos hc, A.splitSign_sign hsign hd]
      simp only [htake]

/-- **EXPONENT**: the reader takes the longest exponent. -/
theorem readExponent_longest (u : List α) :
    ∃ exp, exp <+: u ∧ R.Exponent A exp (R.readExponent A u)
      ∧ ∀ exp' e', exp' <+: u → R.Exponent A exp' e' →
        exp'.length ≤ exp.length := by
  cases u with
  | nil =>
      refine ⟨[], List.nil_prefix, Exponent.none, ?_⟩
      intro exp' e' hp _
      rw [List.prefix_nil.mp hp]
  | cons c t =>
      by_cases hc : R.mark c = true
      swap
      · refine ⟨[], List.nil_prefix, ?_, ?_⟩
        · rw [readExponent, if_neg hc]
          exact Exponent.none
        · intro exp' e' hp h
          cases h with
          | none => exact Nat.le_refl _
          | @mark c' _ _ _ hc' =>
              obtain ⟨rest, heq⟩ := hp
              rw [List.cons_append] at heq
              obtain rfl := (List.cons.inj heq).1
              exact absurd hc' hc
      obtain ⟨sign, hsign, hsplit⟩ := A.splitSign_spec t
      -- what any exponent of the text looks like behind its letter
      have hany : ∀ c' sign' neg' ds' rest, A.Sign sign' neg' → ds' ≠ [] →
          (∀ d ∈ ds', A.digit d = true) →
          c' :: (sign' ++ ds') ++ rest = c :: t →
          sign' = sign ∧ (A.splitSign t).2 = ds' ++ rest := by
        intro c' sign' neg' ds' rest hs' hne' hds' heq
        rw [List.cons_append, List.append_assoc] at heq
        have ht : t = sign' ++ (ds' ++ rest) := (List.cons.inj heq).2.symm
        have hv := split_of_exponent A hs' hne' hds' ht
        rw [hv, ht] at hsplit
        exact ⟨List.append_cancel_right hsplit, hv⟩
      by_cases hds : (A.splitSign t).2.takeWhile A.digit = []
      · refine ⟨[], List.nil_prefix, ?_, ?_⟩
        · have hzero : R.readExponent A (c :: t) = 0 := by
            rw [readExponent, if_pos hc]
            simp [hds, Alphabet.value]
          rw [hzero]
          exact Exponent.none
        · intro exp' e' hp h
          cases h with
          | none => exact Nat.le_refl _
          | @mark c' sign' neg' ds' _ hs' hne' hds' =>
              obtain ⟨rest, heq⟩ := hp
              obtain ⟨-, hv⟩ := hany c' sign' neg' ds' rest hs' hne' hds' heq
              rw [hv, List.takeWhile_append_of_pos hds'] at hds
              exact absurd (List.append_eq_nil_iff.mp hds).1 hne'
      · have hdigits : ∀ d ∈ (A.splitSign t).2.takeWhile A.digit,
            A.digit d = true := fun d hd => List.mem_takeWhile_imp hd
        refine ⟨c :: (sign ++ (A.splitSign t).2.takeWhile A.digit), ?_, ?_, ?_⟩
        · refine ⟨(A.splitSign t).2.dropWhile A.digit, ?_⟩
          rw [List.cons_append, List.append_assoc,
            List.takeWhile_append_dropWhile, ← hsplit]
        · rw [readExponent, if_pos hc]
          exact Exponent.mark hc hsign hds hdigits
        · intro exp' e' hp h
          cases h with
          | none => exact Nat.zero_le _
          | @mark c' sign' neg' ds' _ hs' hne' hds' =>
              obtain ⟨rest, heq⟩ := hp
              obtain ⟨rfl, hv⟩ := hany c' sign' neg' ds' rest hs' hne' hds' heq
              rw [hv, List.takeWhile_append_of_pos hds']
              simp

/-! ## The parts the reader finds -/

/-- What the reader takes apart, and where it stopped. -/
theorem parts (t : List α) :
    ∃ frac, t = t.takeWhile R.digit
          ++ (frac ++ (R.readFraction (t.dropWhile R.digit)).2)
      ∧ R.Fraction frac (R.readFraction (t.dropWhile R.digit)).1
      ∧ (∀ c ∈ (frac ++ (R.readFraction (t.dropWhile R.digit)).2).head?,
          R.digit c = false)
      ∧ (∀ c ∈ (R.readFraction (t.dropWhile R.digit)).2.head?,
          R.digit c = false)
      ∧ (frac = [] →
          R.point ∉ (R.readFraction (t.dropWhile R.digit)).2.head?) := by
  have hsplit : t.takeWhile R.digit ++ t.dropWhile R.digit = t :=
    List.takeWhile_append_dropWhile
  have hhead := Alphabet.head_dropWhile (p := R.digit) t
  generalize t.dropWhile R.digit = w at hsplit hhead
  cases w with
  | nil => exact ⟨[], hsplit.symm, Fraction.none, nofun, nofun, fun _ => nofun⟩
  | cons c u =>
      rw [readFraction]
      by_cases hc : c = R.point
      · rw [if_pos hc]
        refine ⟨R.point :: u.takeWhile R.digit, ?_,
          Fraction.point fun d hd => List.mem_takeWhile_imp hd, ?_,
          Alphabet.head_dropWhile u, nofun⟩
        · rw [List.cons_append, List.takeWhile_append_dropWhile, ← hc]
          exact hsplit.symm
        · intro d hd
          obtain rfl := Option.some.inj hd
          exact R.point_digit
      · rw [if_neg hc]
        refine ⟨[], hsplit.symm, Fraction.none, hhead, hhead, fun _ hp => ?_⟩
        exact hc (Option.some.inj hp)

omit [DecidableEq α] in
/-- Behind its digits a numeral does not start with a digit. -/
theorem head_of_parts {frac fp exp : List α} {e : ℤ} (hf : R.Fraction frac fp)
    (he : R.Exponent A exp e) :
    ∀ c ∈ (frac ++ exp).head?, R.digit c = false := by
  intro c hc
  cases hf with
  | point _ =>
      obtain rfl := Option.some.inj hc
      exact R.point_digit
  | none =>
      cases he with
      | none => exact nomatch hc
      | mark hm =>
          obtain rfl := Option.some.inj hc
          exact R.mark_digit _ hm

omit [DecidableEq α] in
theorem head_exponent {exp : List α} {e : ℤ} (he : R.Exponent A exp e) :
    ∀ c ∈ exp.head?, R.mark c = true := by
  intro c hc
  cases he with
  | none => exact nomatch hc
  | mark hm =>
      obtain rfl := Option.some.inj hc
      exact hm

/-- The reader reads a whole numeral. -/
theorem read_numeral {t : List α} {q : ℚ} (h : R.Numeral A t q) :
    R.read A t = some q := by
  obtain ⟨ip, frac, fp, exp, e, rfl, hip, hf, hne, he, rfl⟩ := h
  have hhead := R.head_of_parts A hf he
  rw [read, Alphabet.takeWhile_stop hip hhead, Alphabet.dropWhile_stop hip hhead]
  have hrest : R.readFraction (frac ++ exp) = (fp, exp) := by
    cases hf with
    | point hfp =>
        have hexp : ∀ c ∈ exp.head?, R.digit c = false := fun c hc =>
          R.mark_digit c (R.head_exponent A he c hc)
        rw [List.cons_append, readFraction, if_pos rfl,
          Alphabet.takeWhile_stop hfp hexp, Alphabet.dropWhile_stop hfp hexp]
    | none =>
        cases exp with
        | nil => rfl
        | cons c u =>
            have hc : c ≠ R.point := by
              rintro rfl
              have := R.head_exponent A he _ rfl
              rw [R.mark_point] at this
              exact nomatch this
            rw [List.nil_append, readFraction, if_neg hc]
  rw [hrest]
  show (if ip ++ fp = [] then none else _) = _
  rw [if_neg hne, R.readExponent_exponent A he]

/-! ## The longest numeral -/

/-- **LONGEST**: no numeral at the start of the text goes further than the one
    the reader finds, nor has it more digits. -/
theorem longest (t : List α) :
    ∃ frac exp e, t.takeWhile R.digit ++ (frac ++ exp) <+: t
      ∧ R.Fraction frac (R.readFraction (t.dropWhile R.digit)).1
      ∧ R.Exponent A exp e
      ∧ e = R.readExponent A (R.readFraction (t.dropWhile R.digit)).2
      ∧ ∀ ip' frac' fp' exp' e', ip' ++ (frac' ++ exp') <+: t →
        (∀ c ∈ ip', R.digit c = true) → R.Fraction frac' fp' →
        R.Exponent A exp' e' →
        (ip' ++ (frac' ++ exp')).length
            ≤ (t.takeWhile R.digit ++ (frac ++ exp)).length
          ∧ (ip' ++ fp').length ≤ (t.takeWhile R.digit
            ++ (R.readFraction (t.dropWhile R.digit)).1).length := by
  obtain ⟨frac, ht, hf, hhead, hrest, hpoint⟩ := R.parts t
  have hip : ∀ c ∈ t.takeWhile R.digit, R.digit c = true :=
    fun c hc => List.mem_takeWhile_imp hc
  generalize t.takeWhile R.digit = ip at ht hip
  generalize R.readFraction (t.dropWhile R.digit) = r at ht hf hhead hrest hpoint
  obtain ⟨fp, u⟩ := r
  obtain ⟨exp, ⟨rest, hu⟩, he, hlong⟩ := R.readExponent_longest A u
  refine ⟨frac, exp, _, ⟨rest, ?_⟩, hf, he, rfl, ?_⟩
  · rw [ht, ← hu]
    simp
  rintro ip' frac' fp' exp' e' ⟨rest', heq⟩ hip' hf' he'
  have hcut : ip' ++ (frac' ++ exp' ++ rest') = ip ++ (frac ++ u) := by
    rw [← ht, ← heq]
    simp
  rcases row_cases hcut hip hip' hhead with ⟨rfl, hw⟩ | ⟨hlt, c, hc, hdigit⟩
  swap
  · -- a digit stands behind the shorter row, so nothing else belongs to it
    have hnil : frac' ++ exp' = [] :=
      nil_of_head (R.head_of_parts A hf' he') hc hdigit
    obtain ⟨rfl, rfl⟩ := List.append_eq_nil_iff.mp hnil
    cases hf'
    simp only [List.append_nil, List.length_append]
    omega
  -- the same digits in front of the point
  have hexp : exp' ++ rest' = u → exp'.length ≤ exp.length :=
    fun hu' => hlong exp' e' ⟨rest', hu'⟩ he'
  rw [List.append_assoc] at hw
  cases hf' with
  | none =>
      cases hf with
      | none =>
          have hle := hexp hw
          simpa using hle
      | point _ =>
          -- an exponent does not start with the point
          have hpt : R.point ∈ (exp' ++ rest').head? := by
            have hw' : exp' ++ rest' = _ := hw
            rw [hw']
            rfl
          have hnil : exp' = [] :=
            nil_of_head (R.head_exponent A he') hpt R.mark_point
          rw [hnil]
          simp
  | point hfp' =>
      cases hf with
      | none =>
          refine absurd ?_ (hpoint rfl)
          have hu' : u = R.point :: (fp' ++ (exp' ++ rest')) := hw.symm
          rw [hu']
          rfl
      | point hfp =>
          have hw' : fp' ++ (exp' ++ rest') = fp ++ u := (List.cons.inj hw).2
          rcases row_cases hw' hfp hfp' hrest with ⟨rfl, hu'⟩
            | ⟨hlt, c, hc, hdigit⟩
          · have hle := hexp hu'
            simpa using hle
          · have hnil : exp' = [] :=
              nil_of_head (fun d hd =>
                R.mark_digit d (R.head_exponent A he' d hd)) hc hdigit
            rw [hnil]
            simp only [List.append_nil, List.length_append, List.length_cons]
            omega

/-- **READER**: the reader returns a number iff the text starts with a numeral
    for it. -/
theorem read_eq_some {t : List α} {q : ℚ} :
    R.read A t = some q ↔ R.Starts A t q := by
  obtain ⟨frac, exp, e, hpre, hf, he, rfl, hlong⟩ := R.longest A t
  have hip : ∀ c ∈ t.takeWhile R.digit, R.digit c = true :=
    fun c hc => List.mem_takeWhile_imp hc
  have hbound : ∀ num' q', num' <+: t → R.Numeral A num' q' →
      num'.length ≤ (t.takeWhile R.digit ++ (frac ++ exp)).length
        ∧ t.takeWhile R.digit ++ (R.readFraction (t.dropWhile R.digit)).1 ≠ [] := by
    rintro num' q' hp ⟨ip', frac', fp', exp', e', rfl, hip', hf', hne', he', -⟩
    obtain ⟨hlen, hdigits⟩ := hlong ip' frac' fp' exp' e' hp hip' hf' he'
    refine ⟨hlen, fun hnil => hne' ?_⟩
    rw [hnil] at hdigits
    exact List.length_eq_zero_iff.mp (Nat.le_zero.mp hdigits)
  by_cases hne : t.takeWhile R.digit
      ++ (R.readFraction (t.dropWhile R.digit)).1 = []
  · have hnone : R.read A t = none := if_pos hne
    rw [hnone]
    refine iff_of_false nofun ?_
    rintro ⟨num, hp, hnum, -⟩
    exact (hbound num q hp hnum).2 hne
  · have hsome : R.read A t = some (R.number (t.takeWhile R.digit)
        (R.readFraction (t.dropWhile R.digit)).1
        (R.readExponent A (R.readFraction (t.dropWhile R.digit)).2)) :=
      if_neg hne
    have hnum : R.Numeral A (t.takeWhile R.digit ++ (frac ++ exp)) _ :=
      ⟨_, frac, _, exp, _, rfl, hip, hf, hne, he, rfl⟩
    rw [hsome]
    constructor
    · intro h
      refine ⟨_, hpre, Option.some.inj h ▸ hnum, ?_⟩
      exact fun num' q' hp h' => (hbound num' q' hp h').1
    · rintro ⟨num, hp, hq, hmax⟩
      -- two longest numerals are the same text
      have hlen : num.length = (t.takeWhile R.digit ++ (frac ++ exp)).length :=
        Nat.le_antisymm (hbound num q hp hq).1 (hmax _ _ hpre hnum)
      obtain rfl := List.prefix_of_prefix_length_le hp hpre hlen.le
        |>.eq_of_length hlen
      exact (R.read_numeral A hnum).symm.trans (R.read_numeral A hq)

end Radix

end FloatNumerals

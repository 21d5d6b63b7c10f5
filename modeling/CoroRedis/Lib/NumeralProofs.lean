import Mathlib.Data.List.TakeWhile

/-! # Numerals at the start of a text

    A reader of integers skips white space, accepts one sign, and takes the
    longest row of digits; what follows is ignored.  `Alphabet` says which
    symbols are white space, signs and digits, `Alphabet.read` is the reader
    and `Alphabet.Starts` the texts it accepts, part by part.

    `read_eq_some` says that the two agree, `value_map_toDigits` that reading
    a printed number gives the number back. -/

namespace Numerals

/-- The symbols a reader of integers tells apart. -/
structure Alphabet (α : Type) where
  space : α → Bool
  plus : α
  minus : α
  digit : α → Bool
  digitVal : α → Nat
  minus_ne_plus : minus ≠ plus
  space_sign : space plus = false ∧ space minus = false
  digit_sign : digit plus = false ∧ digit minus = false
  space_digit : ∀ c, digit c = true → space c = false

namespace Alphabet

variable {α : Type} (A : Alphabet α)

/-- The number a row of digits stands for. -/
def value (ds : List α) : Nat :=
  ds.foldl (fun acc c => 10 * acc + A.digitVal c) 0

/-! ## Reading -/

variable [DecidableEq α]

/-- The sign, minus as `true`, and the text behind it. -/
def splitSign : List α → Bool × List α
  | [] => (false, [])
  | c :: t =>
      if c = A.minus then (true, t)
      else if c = A.plus then (false, t)
      else (false, c :: t)

/-- The integer a text starts with. -/
def read (t : List α) : Option Int :=
  let (neg, t) := A.splitSign (t.dropWhile A.space)
  let ds := t.takeWhile A.digit
  if ds = [] then none
  else some (if neg then -(A.value ds : Int) else (A.value ds : Int))

/-! ## What is read -/

/-- A sign, or nothing, and whether it is a minus. -/
inductive Sign : List α → Bool → Prop where
  | none : Sign [] false
  | plus : Sign [A.plus] false
  | minus : Sign [A.minus] true

/-- The text is white space, a sign, a row of digits with value `v`, and a
    rest that does not go on with a digit. -/
def Starts (t : List α) (v : Int) : Prop :=
  ∃ ws sign neg ds rest,
    t = ws ++ (sign ++ (ds ++ rest))
      ∧ (∀ c ∈ ws, A.space c = true) ∧ A.Sign sign neg
      ∧ ds ≠ [] ∧ (∀ c ∈ ds, A.digit c = true)
      ∧ (∀ c ∈ rest.head?, A.digit c = false)
      ∧ v = if neg then -(A.value ds : Int) else (A.value ds : Int)

omit [DecidableEq α] in
theorem dropWhile_stop {p : α → Bool} {xs rest : List α}
    (hxs : ∀ c ∈ xs, p c = true) (hrest : ∀ c ∈ rest.head?, p c = false) :
    (xs ++ rest).dropWhile p = rest := by
  rw [List.dropWhile_append_of_pos hxs]
  cases rest with
  | nil => rfl
  | cons c rest =>
      have hc : p c = false := hrest c rfl
      exact List.dropWhile_cons_of_neg (by rw [hc]; exact Bool.false_ne_true)

omit [DecidableEq α] in
theorem takeWhile_stop {p : α → Bool} {xs rest : List α}
    (hxs : ∀ c ∈ xs, p c = true) (hrest : ∀ c ∈ rest.head?, p c = false) :
    (xs ++ rest).takeWhile p = xs := by
  rw [List.takeWhile_append_of_pos hxs]
  cases rest with
  | nil => exact List.append_nil _
  | cons c rest =>
      have hc : p c = false := hrest c rfl
      rw [List.takeWhile_cons_of_neg (by rw [hc]; exact Bool.false_ne_true),
        List.append_nil]

omit [DecidableEq α] in
theorem head_dropWhile {p : α → Bool} (t : List α) :
    ∀ c ∈ (t.dropWhile p).head?, p c = false := by
  intro c hc
  cases h : p c with
  | false => rfl
  | true =>
      have hne : t.dropWhile p ≠ [] := by
        intro hnil
        rw [hnil] at hc
        exact nomatch hc
      have hlast := List.head_dropWhile_not p hne
      rw [List.head?_eq_some_head hne] at hc
      rw [← Option.some.inj hc, hlast] at h
      exact nomatch h

/-- The sign is split off, and what it leaves does not start with one that
    could have been taken. -/
theorem splitSign_spec (t : List α) :
    ∃ sign, A.Sign sign (A.splitSign t).1 ∧ t = sign ++ (A.splitSign t).2 := by
  cases t with
  | nil => exact ⟨[], Sign.none, rfl⟩
  | cons c t =>
      rw [splitSign]
      by_cases hm : c = A.minus
      · rw [if_pos hm]
        exact ⟨[A.minus], Sign.minus, by rw [hm]; rfl⟩
      rw [if_neg hm]
      by_cases hp : c = A.plus
      · rw [if_pos hp]
        exact ⟨[A.plus], Sign.plus, by rw [hp]; rfl⟩
      rw [if_neg hp]
      exact ⟨[], Sign.none, rfl⟩

/-- A sign is split off a text that does not start with another one. -/
theorem splitSign_of_head {sign : List α} {neg : Bool} (h : A.Sign sign neg)
    {c : α} (hm : c ≠ A.minus) (hp : c ≠ A.plus) (t : List α) :
    A.splitSign (sign ++ c :: t) = (neg, c :: t) := by
  cases h with
  | none => rw [List.nil_append, splitSign, if_neg hm, if_neg hp]
  | plus =>
      rw [List.singleton_append, splitSign, if_neg A.minus_ne_plus.symm, if_pos rfl]
  | minus =>
      rw [List.singleton_append, splitSign, if_pos rfl]

theorem splitSign_sign {sign : List α} {neg : Bool} (h : A.Sign sign neg)
    {c : α} (hc : A.digit c = true) (t : List α) :
    A.splitSign (sign ++ c :: t) = (neg, c :: t) := by
  refine A.splitSign_of_head h ?_ ?_ t
  · rintro rfl
    rw [A.digit_sign.2] at hc
    exact nomatch hc
  · rintro rfl
    rw [A.digit_sign.1] at hc
    exact nomatch hc

/-- **READER**: the reader returns an integer iff the text starts with a
    numeral for it. -/
theorem read_eq_some {t : List α} {v : Int} :
    A.read t = some v ↔ A.Starts t v := by
  constructor
  · intro h
    obtain ⟨sign, hsign, hsplit⟩ := A.splitSign_spec (t.dropWhile A.space)
    rw [read] at h
    split at h
    next neg t' hst =>
      rw [hst] at hsign hsplit
      by_cases hds : t'.takeWhile A.digit = []
      · rw [if_pos hds] at h
        exact nomatch h
      · rw [if_neg hds] at h
        refine ⟨t.takeWhile A.space, sign, neg, t'.takeWhile A.digit,
          t'.dropWhile A.digit, ?_, ?_, hsign, hds, ?_, head_dropWhile t', ?_⟩
        · rw [List.takeWhile_append_dropWhile, ← hsplit,
            List.takeWhile_append_dropWhile]
        · intro c hc
          exact List.mem_takeWhile_imp hc
        · intro c hc
          exact List.mem_takeWhile_imp hc
        · exact (Option.some.inj h).symm
  · rintro ⟨ws, sign, neg, ds, rest, rfl, hws, hsign, hne, hds, hrest, rfl⟩
    obtain ⟨c, tl, rfl⟩ := List.exists_cons_of_ne_nil hne
    have hc : A.digit c = true := hds c (List.mem_cons_self ..)
    -- neither a sign nor a digit counts as white space
    have hhead : ∀ d ∈ (sign ++ (c :: tl ++ rest)).head?, A.space d = false := by
      intro d hd
      cases hsign with
      | none => exact Option.some.inj hd ▸ A.space_digit c hc
      | plus => exact Option.some.inj hd ▸ A.space_sign.1
      | minus => exact Option.some.inj hd ▸ A.space_sign.2
    rw [read, dropWhile_stop hws hhead, List.cons_append,
      A.splitSign_sign hsign hc, ← List.cons_append]
    show (if (c :: tl ++ rest).takeWhile A.digit = [] then none else _) = _
    rw [takeWhile_stop hds hrest, if_neg hne]

/-- A text of digits only is read as its value. -/
theorem read_digits {ds : List α} (hne : ds ≠ [])
    (hds : ∀ c ∈ ds, A.digit c = true) : A.read ds = some (A.value ds : Int) := by
  refine A.read_eq_some.mpr ⟨[], [], false, ds, [], ?_, ?_, Sign.none, hne, hds,
    ?_, rfl⟩
  · rw [List.append_nil]
    rfl
  · intro c hc
    exact nomatch hc
  · intro c hc
    exact nomatch hc

/-! ## Printing and reading back -/

omit [DecidableEq α] in
/-- **ROUND TRIP**: the digits of a number, written in the alphabet's own
    digits, have the number as their value. -/
theorem value_map_toDigits {f : Char → α}
    (hf : ∀ c, c.isDigit = true → A.digitVal (f c) = c.toNat - '0'.toNat)
    (n : Nat) : A.value ((Nat.toDigits 10 n).map f) = n := by
  have hfold : ∀ (cs : List Char) (acc : Nat), (∀ c ∈ cs, c.isDigit = true) →
      (cs.map f).foldl (fun acc c => 10 * acc + A.digitVal c) acc
        = Nat.ofDigitChars 10 cs acc := by
    intro cs
    induction cs with
    | nil => intro acc _; rfl
    | cons c cs ih =>
        intro acc h
        rw [List.map_cons, List.foldl_cons, hf c (h c (List.mem_cons_self ..)),
          ih _ (fun d hd => h d (List.mem_cons_of_mem _ hd)),
          Nat.ofDigitChars_cons]
  have hdig : ∀ c ∈ Nat.toDigits 10 n, c.isDigit = true := by
    intro c hc
    exact Nat.isDigit_of_mem_toDigits (by decide) (by decide) hc
  rw [value, hfold _ _ hdig, Nat.ofDigitChars_ten_toDigits]

end Alphabet

end Numerals

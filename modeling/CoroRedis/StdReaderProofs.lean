import CoroRedis.Lib.FloatNumeralProofs
import CoroRedis.BytesProofs

/-! # Reading numbers with the standard library

    `std::stol`, `std::stoll` and `std::stod` skip white space, read the
    longest numeral and ignore the rest; they throw where there is none, or
    where its value is out of range.

    `Platform` leaves open what the standard leaves to the implementation: the
    width of `long`, whether an underflow counts as out of range, and how a
    `double` is held and printed.

    * `stoInt_ok_iff` — the integer readers return exactly on readable texts;
    * `stod_ok_iff` — so does `std::stod`. -/

namespace Decoding

open Numerals FloatNumerals CoroBytes

/-! ## `std::stol` and `std::stoll` -/

/-- White space, signs and digits of the C locale. -/
def ascii : Alphabet Byte where
  space c := c == 32 || (decide (9 ≤ c.toNat) && decide (c.toNat ≤ 13))
  plus := 43
  minus := 45
  digit c := decide (48 ≤ c.toNat) && decide (c.toNat ≤ 57)
  digitVal c := c.toNat - 48
  minus_ne_plus := by decide
  space_sign := by decide
  digit_sign := by decide
  space_digit := by
    intro c hc
    have hlo : 48 ≤ c.toNat := of_decide_eq_true (Bool.and_eq_true_iff.mp hc).1
    have hne : (c == 32) = false := by
      rw [beq_eq_false_iff_ne]
      rintro rfl
      exact absurd hlo (by decide)
    rw [hne, Bool.false_or, decide_eq_false (by omega : ¬ c.toNat ≤ 13),
      Bool.and_false]

/-- What the standard readers throw. -/
inductive StdException where
  | invalidArgument | outOfRange
  deriving DecidableEq

/-- `std::stol` and `std::stoll`, for a signed type of `bits` bits. -/
def stoInt (bits : Nat) (s : Bytes) : Except StdException Int :=
  match ascii.read s with
  | none => .error .invalidArgument
  | some v =>
      if -2 ^ (bits - 1) ≤ v ∧ v < 2 ^ (bits - 1) then .ok v
      else .error .outOfRange

/-- `std::stoll`; `long long` has 64 bits. -/
def stoll (s : Bytes) : Except StdException Int64 :=
  (stoInt 64 s).map Int64.ofInt

/-- The text starts with an integer that a signed type of `bits` bits has. -/
def Readable (bits : Nat) (s : Bytes) : Prop :=
  ∃ v, ascii.Starts s v ∧ -2 ^ (bits - 1) ≤ v ∧ v < 2 ^ (bits - 1)

/-- A row of digits, and nothing else, whose value is below `bound`. -/
def DecimalBelow (bound : Nat) (s : Bytes) : Prop :=
  s ≠ [] ∧ (∀ c ∈ s, ascii.digit c = true) ∧ ascii.value s < bound

theorem stoInt_eq_ok {bits : Nat} {s : Bytes} {v : Int} :
    stoInt bits s = .ok v
      ↔ ascii.Starts s v ∧ -2 ^ (bits - 1) ≤ v ∧ v < 2 ^ (bits - 1) := by
  rw [stoInt, ← ascii.read_eq_some]
  cases hr : ascii.read s with
  | none => simp
  | some w =>
      by_cases hw : -2 ^ (bits - 1) ≤ w ∧ w < 2 ^ (bits - 1)
      · simp only [if_pos hw, Except.ok.injEq, Option.some.injEq]
        refine ⟨fun h => ⟨h, h ▸ hw⟩, fun h => h.1⟩
      · simp only [if_neg hw, Option.some.injEq, reduceCtorEq, false_iff]
        rintro ⟨rfl, h⟩
        exact hw h

/-- The readers return exactly on readable texts. -/
theorem stoInt_ok_iff {bits : Nat} {s : Bytes} :
    (∃ v, stoInt bits s = .ok v) ↔ Readable bits s :=
  exists_congr fun _ => stoInt_eq_ok

theorem stoInt_empty (bits : Nat) : stoInt bits [] = .error .invalidArgument := rfl

theorem stoll_ok_iff {s : Bytes} : (∃ n, stoll s = .ok n) ↔ Readable 64 s := by
  rw [← stoInt_ok_iff, stoll]
  cases stoInt 64 s <;> simp [Except.map]

/-- `stoll` on digits only: the number, while it has 63 bits. -/
theorem stoll_digits {s : Bytes} (hne : s ≠ [])
    (hs : ∀ c ∈ s, ascii.digit c = true) :
    stoll s = if ascii.value s < 2 ^ 63 then .ok (Int64.ofNat (ascii.value s))
      else .error .outOfRange := by
  rw [stoll, stoInt, ascii.read_digits hne hs]
  by_cases hv : ascii.value s < 2 ^ 63
  · have hint : -2 ^ (64 - 1) ≤ (ascii.value s : Int)
        ∧ (ascii.value s : Int) < 2 ^ (64 - 1) := by omega
    simp only [if_pos hv, if_pos hint]
    rfl
  · have hint : ¬(-2 ^ (64 - 1) ≤ (ascii.value s : Int)
        ∧ (ascii.value s : Int) < 2 ^ (64 - 1)) := by omega
    simp only [if_neg hv, if_neg hint]
    rfl

/-- The reader undoes `std::to_string`. -/
theorem value_decimal (n : Nat) : ascii.value (decimal n) = n := by
  refine ascii.value_map_toDigits (fun c hc => ?_) n
  simp only [Char.isDigit, Bool.and_eq_true, decide_eq_true_eq] at hc
  have h2 : c.toNat ≤ 57 := hc.2
  show (UInt8.ofNat c.toNat).toNat - 48 = c.toNat - 48
  rw [UInt8.toNat_ofNat', Nat.mod_eq_of_lt (by omega)]

theorem digit_decimal {n : Nat} {c : Byte} (h : c ∈ decimal n) :
    ascii.digit c = true := by
  have hd := digit_of_mem_decimal h
  show (decide (48 ≤ c.toNat) && decide (c.toNat ≤ 57)) = true
  rw [decide_eq_true hd.1, decide_eq_true hd.2]
  rfl

/-! ## `std::stod` -/

/-- Decimal numerals of `strtod`. -/
def decimalRadix : Radix Byte where
  base := 10
  digit := ascii.digit
  digitVal := ascii.digitVal
  point := 46
  mark c := c == 101 || c == 69
  expBase := 10
  point_digit := by decide
  mark_digit := forall_byte (by decide +kernel)
  mark_point := by decide

/-- The value of a hexadecimal digit. -/
def hexVal (c : Byte) : Nat :=
  if c.toNat ≤ 57 then c.toNat - 48 else (lower c).toNat - 87

/-- Hexadecimal numerals, behind the `0x`: the exponent is a power of two, in
    decimal. -/
def hexRadix : Radix Byte where
  base := 16
  digit c := ascii.digit c
    || (decide (97 ≤ (lower c).toNat) && decide ((lower c).toNat ≤ 102))
  digitVal := hexVal
  point := 46
  mark c := c == 112 || c == 80
  expBase := 2
  point_digit := by decide
  mark_digit := forall_byte (by decide +kernel)
  mark_point := by decide

/-- What a numeral stands for, without its sign. -/
inductive Magnitude where
  | number (q : ℚ)
  | infinity
  | nan
  deriving DecidableEq

/-- What a floating-point text stands for, before it is rounded. -/
structure FloatText where
  neg : Bool
  magnitude : Magnitude
  deriving DecidableEq

/-- The letter behind the `0` of a hexadecimal numeral. -/
def hexMark (c : Byte) : Bool := c == 120 || c == 88

/-- The part of `strtod` for a hexadecimal numeral. -/
def readHex : Bytes → Option ℚ
  | c :: x :: u => if c = 48 ∧ hexMark x then hexRadix.read ascii u else none
  | _ => none

/-- What stands behind white space and sign.  `infinity` and `nan(…)` start
    like `inf` and `nan` and mean the same. -/
def readMagnitude (t : Bytes) : Option Magnitude :=
  if SameWord (t.take 3) (lit "inf") then some .infinity
  else if SameWord (t.take 3) (lit "nan") then some .nan
  else match readHex t with
    | some q => some (.number q)
    | none => (decimalRadix.read ascii t).map .number

/-- `strtod`, before rounding. -/
def readFloat (t : Bytes) : Option FloatText :=
  let (neg, u) := ascii.splitSign (t.dropWhile ascii.space)
  (readMagnitude u).map fun m => ⟨neg, m⟩

/-- A hexadecimal numeral for `q`. -/
def HexStarts (t : Bytes) (q : ℚ) : Prop :=
  ∃ x u, t = 48 :: x :: u ∧ hexMark x = true ∧ hexRadix.Starts ascii u q

/-- What a text behind white space and sign starts with. -/
inductive MagnitudeStarts (t : Bytes) : Magnitude → Prop where
  | infinity (h : SameWord (t.take 3) (lit "inf")) : MagnitudeStarts t .infinity
  | nan (h : SameWord (t.take 3) (lit "nan")) : MagnitudeStarts t .nan
  | hex {q : ℚ} (h : HexStarts t q) : MagnitudeStarts t (.number q)
  | decimal {q : ℚ} (hhex : ∀ q', ¬ HexStarts t q')
      (h : decimalRadix.Starts ascii t q) : MagnitudeStarts t (.number q)

/-- The text is white space, a sign, a numeral and a rest. -/
def FloatStarts (t : Bytes) (v : FloatText) : Prop :=
  ∃ ws sign body, t = ws ++ (sign ++ body)
    ∧ (∀ c ∈ ws, ascii.space c = true) ∧ ascii.Sign sign v.neg
    ∧ MagnitudeStarts body v.magnitude

theorem readHex_eq_some {t : Bytes} {q : ℚ} :
    readHex t = some q ↔ HexStarts t q := by
  constructor
  · intro h
    match t, h with
    | c :: x :: u, h =>
        rw [readHex] at h
        by_cases hx : c = 48 ∧ hexMark x = true
        · rw [if_pos hx] at h
          exact ⟨x, u, by rw [hx.1], hx.2, (hexRadix.read_eq_some ascii).mp h⟩
        · rw [if_neg hx] at h
          exact nomatch h
  · rintro ⟨x, u, rfl, hx, h⟩
    rw [readHex, if_pos ⟨rfl, hx⟩]
    exact (hexRadix.read_eq_some ascii).mpr h

/-- A text that starts with a decimal numeral starts with a digit or a
    point. -/
theorem head_of_decimal {t : Bytes} {q : ℚ}
    (h : decimalRadix.Starts ascii t q) :
    ∃ c u, t = c :: u ∧ (ascii.digit c = true ∨ c = 46) := by
  obtain ⟨num, ⟨rest, rfl⟩, ⟨ip, frac, fp, exp, e, rfl, hip, hf, hne, -, -⟩, -⟩
    := h
  cases ip with
  | cons c ip =>
      exact ⟨c, _, rfl, Or.inl (hip c List.mem_cons_self)⟩
  | nil =>
      cases hf with
      | none => exact absurd rfl hne
      | point _ => exact ⟨46, _, rfl, Or.inr rfl⟩

/-- A word of three letters that starts the text. -/
theorem head_of_word {t w : Bytes} {b : Byte} (h : SameWord (t.take 3) (b :: w)) :
    ∃ c u, t = c :: u ∧ lower c = lower b := by
  cases t with
  | nil => exact nomatch (h : [] = _)
  | cons c u => exact ⟨c, u, rfl, (List.cons.inj h).1⟩

/-- A magnitude starts with neither white space nor a sign. -/
theorem head_of_magnitude {t : Bytes} {m : Magnitude}
    (h : MagnitudeStarts t m) :
    ∃ c u, t = c :: u ∧ ascii.space c = false ∧ c ≠ ascii.minus
      ∧ c ≠ ascii.plus := by
  have hletter : ∀ c : Byte, lower c = lower 105 ∨ lower c = lower 110 →
      ascii.space c = false ∧ c ≠ ascii.minus ∧ c ≠ ascii.plus :=
    forall_byte (by decide +kernel)
  have hnumber : ∀ c : Byte, ascii.digit c = true ∨ c = 46 →
      ascii.space c = false ∧ c ≠ ascii.minus ∧ c ≠ ascii.plus :=
    forall_byte (by decide +kernel)
  cases h with
  | infinity h =>
      obtain ⟨c, u, ht, hc⟩ := head_of_word (show SameWord _ (105 :: _) from h)
      exact ⟨c, u, ht, hletter c (Or.inl hc)⟩
  | nan h =>
      obtain ⟨c, u, ht, hc⟩ := head_of_word (show SameWord _ (110 :: _) from h)
      exact ⟨c, u, ht, hletter c (Or.inr hc)⟩
  | hex h =>
      obtain ⟨x, u, ht, -, -⟩ := h
      exact ⟨48, _, ht, hnumber 48 (by decide)⟩
  | decimal _ h =>
      obtain ⟨c, u, ht, hc⟩ := head_of_decimal h
      exact ⟨c, u, ht, hnumber c hc⟩

theorem not_word_of_head {t w : Bytes} {b c : Byte} {u : Bytes}
    (ht : t = c :: u) (hc : lower c ≠ lower b) :
    ¬ SameWord (t.take 3) (b :: w) := by
  intro h
  obtain ⟨c', u', ht', hc'⟩ := head_of_word h
  rw [ht] at ht'
  exact hc ((List.cons.inj ht').1 ▸ hc')

theorem readMagnitude_eq_some {t : Bytes} {m : Magnitude} :
    readMagnitude t = some m ↔ MagnitudeStarts t m := by
  have hdigit : ∀ c : Byte, ascii.digit c = true ∨ c = 46 →
      lower c ≠ lower 105 ∧ lower c ≠ lower 110 := forall_byte (by decide +kernel)
  constructor
  · intro h
    rw [readMagnitude] at h
    by_cases hinf : SameWord (t.take 3) (lit "inf")
    · rw [if_pos hinf] at h
      exact Option.some.inj h ▸ .infinity hinf
    rw [if_neg hinf] at h
    by_cases hnan : SameWord (t.take 3) (lit "nan")
    · rw [if_pos hnan] at h
      exact Option.some.inj h ▸ .nan hnan
    rw [if_neg hnan] at h
    cases hhex : readHex t with
    | some q =>
        rw [hhex] at h
        exact Option.some.inj h ▸ .hex (readHex_eq_some.mp hhex)
    | none =>
        rw [hhex] at h
        obtain ⟨q, hq, rfl⟩ := Option.map_eq_some_iff.mp h
        refine .decimal (fun q' hq' => ?_)
          ((decimalRadix.read_eq_some ascii).mp hq)
        rw [readHex_eq_some.mpr hq'] at hhex
        exact nomatch hhex
  · intro h
    have hword : ∀ c u, t = c :: u → ascii.digit c = true ∨ c = 46 →
        ¬ SameWord (t.take 3) (lit "inf") ∧ ¬ SameWord (t.take 3) (lit "nan") :=
      fun c u ht hc => ⟨not_word_of_head ht (hdigit c hc).1,
        not_word_of_head ht (hdigit c hc).2⟩
    cases h with
    | infinity h => exact if_pos h
    | nan h =>
        obtain ⟨c, u, ht, hc⟩ := head_of_word (show SameWord _ (110 :: _) from h)
        have hinf : ¬ SameWord (t.take 3) (lit "inf") := by
          refine not_word_of_head ht ?_
          rw [hc]
          decide
        rw [readMagnitude, if_neg hinf, if_pos h]
    | hex h =>
        obtain ⟨x, u, ht, -, -⟩ := id h
        obtain ⟨hinf, hnan⟩ := hword 48 _ ht (by decide)
        rw [readMagnitude, if_neg hinf, if_neg hnan, readHex_eq_some.mpr h]
    | decimal hno h =>
        obtain ⟨c, u, ht, hc⟩ := head_of_decimal h
        obtain ⟨hinf, hnan⟩ := hword c u ht hc
        have hnone : readHex t = none := by
          cases hhex : readHex t with
          | none => rfl
          | some q' => exact absurd (readHex_eq_some.mp hhex) (hno q')
        rw [readMagnitude, if_neg hinf, if_neg hnan, hnone]
        show (decimalRadix.read ascii t).map Magnitude.number = _
        rw [(decimalRadix.read_eq_some ascii).mpr h]
        rfl

/-- **READER**: `strtod` finds what the text starts with. -/
theorem readFloat_eq_some {t : Bytes} {v : FloatText} :
    readFloat t = some v ↔ FloatStarts t v := by
  constructor
  · intro h
    obtain ⟨sign, hsign, hsplit⟩ := ascii.splitSign_spec (t.dropWhile ascii.space)
    have hread : (readMagnitude (ascii.splitSign (t.dropWhile ascii.space)).2).map
        (fun m => FloatText.mk (ascii.splitSign (t.dropWhile ascii.space)).1 m)
        = some v := h
    obtain ⟨m, hm, rfl⟩ := Option.map_eq_some_iff.mp hread
    refine ⟨t.takeWhile ascii.space, sign, _, ?_,
      fun c hc => List.mem_takeWhile_imp hc, hsign, readMagnitude_eq_some.mp hm⟩
    rw [← hsplit, List.takeWhile_append_dropWhile]
  · rintro ⟨ws, sign, body, rfl, hws, hsign, hm⟩
    obtain ⟨c, u, rfl, hspace, hminus, hplus⟩ := head_of_magnitude hm
    have hhead : ∀ d ∈ (sign ++ c :: u).head?, ascii.space d = false := by
      intro d hd
      generalize v.neg = neg at hsign
      cases hsign with
      | none => exact Option.some.inj hd ▸ hspace
      | plus => exact Option.some.inj hd ▸ ascii.space_sign.1
      | minus => exact Option.some.inj hd ▸ ascii.space_sign.2
    rw [readFloat, Alphabet.dropWhile_stop hws hhead,
      ascii.splitSign_of_head hsign hminus hplus]
    show (readMagnitude (c :: u)).map _ = _
    rw [readMagnitude_eq_some.mpr hm]
    rfl

/-! ### The range of `double` -/

/-- Rounded to the nearest `double`, the number is too large for one. -/
def Magnitude.Overflows : Magnitude → Prop
  | .number q => ((2 ^ 1024 - 2 ^ 970 : ℕ) : ℚ) ≤ q
  | _ => False

/-- The number is below the least normal `double`, and none itself. -/
def Magnitude.Underflows : Magnitude → Prop
  | .number q => 0 < q ∧ q * (2 ^ 1022 : ℕ) < 1 ∧ (q * (2 ^ 1074 : ℕ)).den ≠ 1
  | _ => False

instance : ∀ m : Magnitude, Decidable m.Overflows
  | .number q => inferInstanceAs (Decidable (_ ≤ q))
  | .infinity => inferInstanceAs (Decidable False)
  | .nan => inferInstanceAs (Decidable False)

instance : ∀ m : Magnitude, Decidable m.Underflows
  | .number q => inferInstanceAs (Decidable (0 < q ∧ _ ∧ _))
  | .infinity => inferInstanceAs (Decidable False)
  | .nan => inferInstanceAs (Decidable False)

/-- What the standard leaves to the platform: the width of `long`, for which
    underflows `strtod` sets `ERANGE`, the `double` nearest to a text, `fmt`'s
    `{}` and `std::to_string` on a `double`. -/
structure Platform (double : Type) where
  longBits : Nat
  erange : Magnitude → Bool
  nearest : FloatText → double
  fmtDouble : double → Bytes
  toStringDouble : double → Bytes

variable {double : Type} (P : Platform double)

/-- The conversion does not set `ERANGE`. -/
def Platform.InRange (m : Magnitude) : Prop :=
  ¬ m.Overflows ∧ (m.Underflows → P.erange m = false)

instance (m : Magnitude) : Decidable (P.InRange m) :=
  inferInstanceAs (Decidable (_ ∧ (_ → _)))

/-- `std::stod`. -/
def Platform.stod (s : Bytes) : Except StdException double :=
  match readFloat s with
  | none => .error .invalidArgument
  | some v =>
      if P.InRange v.magnitude then .ok (P.nearest v) else .error .outOfRange

/-- The text starts with a floating-point numeral in the range of `double`. -/
def Platform.DoubleText (s : Bytes) : Prop :=
  ∃ v, FloatStarts s v ∧ P.InRange v.magnitude

/-- `std::stod` returns exactly on such texts. -/
theorem stod_ok_iff {s : Bytes} :
    (∃ d, P.stod s = .ok d) ↔ P.DoubleText s := by
  rw [Platform.stod]
  cases hr : readFloat s with
  | none =>
      refine iff_of_false nofun ?_
      rintro ⟨v, hv, -⟩
      rw [readFloat_eq_some.mpr hv] at hr
      exact nomatch hr
  | some v =>
      show (∃ d, (if P.InRange v.magnitude then _ else _) = Except.ok d) ↔ _
      by_cases hv : P.InRange v.magnitude
      · rw [if_pos hv]
        exact iff_of_true ⟨_, rfl⟩ ⟨v, readFloat_eq_some.mp hr, hv⟩
      · rw [if_neg hv]
        refine iff_of_false nofun ?_
        rintro ⟨v', hv', hrange⟩
        obtain rfl := Option.some.inj (hr.symm.trans (readFloat_eq_some.mpr hv'))
        exact hv hrange

end Decoding

import Mathlib.Data.Rat.Floor
import CoroRedis.Lib.RoundingProofs
import CoroRedis.ArgvProofs

/-! # `std::to_string` on a finite `double`

    Finite doubles are rationals here.  `std::to_string` prints them with six
    fractional digits, the last of them rounded, and `scoreValue` is what the
    server takes such a text for.

    * `scoreValue_toString` — it takes it for the number rounded to millionths;
    * `plain_toString` — the builders can glue it into a text. -/

namespace Scores

open CoroBytes HiredisFormat Decoding Numerals Rounding Methods

/-! ## Printing -/

def digitByte (d : Nat) : Byte := UInt8.ofNat (48 + d)

/-- The last `d` digits of `n`, with leading zeros. -/
def padded : Nat → Nat → Bytes
  | 0, _ => []
  | d + 1, n => padded d (n / 10) ++ [digitByte (n % 10)]

/-- The number in millionths, without its sign. -/
def millionths (q : ℚ) : Nat := (roundEven (10 ^ 6 * |q|)).toNat

/-- `std::to_string`, which is `%f`: the sign, the integral part and six
    digits. -/
def stdToString (q : ℚ) : Bytes :=
  (if q < 0 then lit "-" else []) ++ (decimal (millionths q / 10 ^ 6)
    ++ lit "." ++ padded 6 (millionths q % 10 ^ 6))

/-! ## Reading -/

/-- A decimal without a sign. -/
def unsignedValue (t : Bytes) : Option ℚ :=
  match t.takeWhile ascii.digit, t.dropWhile ascii.digit with
  | [], _ => none
  | ip, [] => some (ascii.value ip)
  | ip, c :: fs =>
      if c = 46 ∧ fs.all ascii.digit then
        some ((ascii.value ip : ℚ) + (ascii.value fs : ℚ) / 10 ^ fs.length)
      else none

/-- The number a decimal denotes. -/
def scoreValue (t : Bytes) : Option ℚ :=
  (unsignedValue (ascii.splitSign t).2).map fun v =>
    if (ascii.splitSign t).1 then -v else v

/-! ## Digits -/

theorem digitByte_spec {d : Nat} (h : d < 10) :
    ascii.digit (digitByte d) = true ∧ ascii.digitVal (digitByte d) = d := by
  have hall : ∀ d < 10, ascii.digit (digitByte d) = true
      ∧ ascii.digitVal (digitByte d) = d := by decide
  exact hall d h

theorem length_padded (d : Nat) : ∀ n, (padded d n).length = d := by
  induction d with
  | zero => intro n; rfl
  | succ d ih =>
      intro n
      rw [padded, List.length_append, ih, List.length_singleton]

theorem digit_padded (d : Nat) : ∀ n, ∀ c ∈ padded d n, ascii.digit c = true := by
  induction d with
  | zero => intro n c hc; exact nomatch hc
  | succ d ih =>
      intro n c hc
      rcases List.mem_append.mp hc with hfront | hlast
      · exact ih _ c hfront
      · rw [List.mem_singleton.mp hlast]
        exact (digitByte_spec (Nat.mod_lt n (by decide))).1

/-- The digits stand for the number, modulo the digits that are cut off. -/
theorem value_padded (d : Nat) : ∀ n, ascii.value (padded d n) = n % 10 ^ d := by
  induction d with
  | zero => intro n; rw [Nat.pow_zero, Nat.mod_one]; rfl
  | succ d ih =>
      intro n
      have hsnoc : ascii.value (padded (d + 1) n)
          = 10 * ascii.value (padded d (n / 10)) + n % 10 := by
        rw [padded, Alphabet.value, List.foldl_append]
        exact congrArg _ (digitByte_spec (Nat.mod_lt n (by decide))).2
      rw [hsnoc, ih, Nat.pow_succ', Nat.mod_mul, Nat.add_comm]

/-! ## Reading back -/

theorem millionths_eq (q : ℚ) :
    (millionths q : ℚ) = roundEven (10 ^ 6 * |q|) := by
  have hnonneg : 0 ≤ roundEven (10 ^ 6 * |q|) := roundEven_nonneg (by positivity)
  rw [millionths]
  exact_mod_cast Int.toNat_of_nonneg hnonneg

/-- Integral part and fraction are put together again. -/
theorem unsignedValue_text (n : Nat) :
    unsignedValue (decimal (n / 10 ^ 6) ++ lit "." ++ padded 6 (n % 10 ^ 6))
      = some (n / 10 ^ 6 : ℚ) := by
  have hpoint : lit "." = [46] := by decide
  have hdigits : ∀ c ∈ decimal (n / 10 ^ 6), ascii.digit c = true :=
    fun c hc => digit_decimal hc
  have hstop : ∀ c ∈ (46 :: padded 6 (n % 10 ^ 6) : Bytes).head?,
      ascii.digit c = false := by
    intro c hc
    obtain rfl := Option.some.inj hc
    decide
  have hall : (padded 6 (n % 10 ^ 6)).all ascii.digit = true :=
    List.all_eq_true.mpr (digit_padded 6 _)
  have hread : unsignedValue (decimal (n / 10 ^ 6)
      ++ 46 :: padded 6 (n % 10 ^ 6))
      = some ((ascii.value (decimal (n / 10 ^ 6)) : ℚ)
          + (ascii.value (padded 6 (n % 10 ^ 6)) : ℚ)
            / 10 ^ (padded 6 (n % 10 ^ 6)).length) := by
    rw [unsignedValue, Alphabet.takeWhile_stop hdigits hstop,
      Alphabet.dropWhile_stop hdigits hstop]
    obtain ⟨c, ip, hip⟩ := List.exists_cons_of_ne_nil (decimal_ne_nil (n / 10 ^ 6))
    rw [hip]
    show (if (46 : Byte) = 46 ∧ (padded 6 (n % 10 ^ 6)).all ascii.digit then _
      else none) = _
    rw [if_pos ⟨rfl, hall⟩]
  rw [hpoint, List.append_assoc, List.singleton_append, hread, value_decimal,
    value_padded, length_padded, Nat.mod_mod]
  -- quotient and remainder make up the number
  have hsplit : ((n / 10 ^ 6 : ℕ) : ℚ) * 10 ^ 6 + ((n % 10 ^ 6 : ℕ) : ℚ) = n := by
    exact_mod_cast Nat.div_add_mod' n (10 ^ 6)
  congr 1
  rw [← hsplit]
  field_simp

/-- **READ-BACK**: a printed number denotes the number rounded to
    millionths. -/
theorem scoreValue_toString (q : ℚ) :
    scoreValue (stdToString q)
      = some ((roundEven (10 ^ 6 * q) : ℚ) / 10 ^ 6) := by
  obtain ⟨c, tl, hc⟩ := List.exists_cons_of_ne_nil
    (decimal_ne_nil (millionths q / 10 ^ 6))
  have hdigit : ascii.digit c = true := by
    refine digit_decimal (n := millionths q / 10 ^ 6) ?_
    rw [hc]
    exact List.mem_cons_self
  -- the sign is split off in front of the first digit
  have hsign : ∀ sign neg, ascii.Sign sign neg →
      scoreValue (sign ++ (decimal (millionths q / 10 ^ 6) ++ lit "."
        ++ padded 6 (millionths q % 10 ^ 6)))
      = some (if neg then -((roundEven (10 ^ 6 * |q|) : ℚ) / 10 ^ 6)
          else (roundEven (10 ^ 6 * |q|) : ℚ) / 10 ^ 6) := by
    intro sign neg h
    have hvalue := unsignedValue_text (millionths q)
    rw [millionths_eq, hc, List.cons_append, List.cons_append] at hvalue
    rw [hc, List.cons_append, List.cons_append, scoreValue,
      Alphabet.splitSign_sign ascii h hdigit, hvalue]
    rfl
  rw [stdToString]
  by_cases hq : q < 0
  · have habs : 10 ^ 6 * |q| = -(10 ^ 6 * q) := by
      rw [abs_of_neg hq, mul_neg]
    have hminus : lit "-" = [ascii.minus] := by decide
    rw [if_pos hq, hminus, hsign _ true Alphabet.Sign.minus, habs, roundEven_neg,
      if_pos rfl]
    push_cast
    rw [neg_div, neg_neg]
  · rw [if_neg hq, hsign _ false Alphabet.Sign.none, abs_of_nonneg (not_lt.mp hq),
      if_neg Bool.false_ne_true]

/-! ## Printed numbers as arguments -/

theorem point_mem_toString (q : ℚ) : (46 : Byte) ∈ stdToString q := by
  have hpoint : (46 : Byte) ∈ lit "." := by decide
  exact List.mem_append_right _ (List.mem_append_left _
    (List.mem_append_right _ hpoint))

/-- A printed number consists of a minus, a point and digits. -/
theorem byte_of_mem_toString {q : ℚ} {b : Byte} (h : b ∈ stdToString q) :
    b ∈ lit "-" ∨ b ∈ lit "." ∨ ascii.digit b = true := by
  rcases List.mem_append.mp h with hsign | hrest
  · by_cases hq : q < 0
    · rw [if_pos hq] at hsign
      exact Or.inl hsign
    · rw [if_neg hq] at hsign
      exact nomatch hsign
  · rcases List.mem_append.mp hrest with hfront | hfrac
    · rcases List.mem_append.mp hfront with hint | hpoint
      · exact Or.inr (Or.inr (digit_decimal hint))
      · exact Or.inr (Or.inl hpoint)
    · exact Or.inr (Or.inr (digit_padded 6 _ b hfrac))

theorem plain_toString (q : ℚ) : Plain (stdToString q) := by
  have hno : ∀ b ∈ [sp, nul, pct], b ∉ stdToString q := by
    intro b hb hmem
    have hnone : ∀ b ∈ [sp, nul, pct],
        ¬ (b ∈ lit "-" ∨ b ∈ lit "." ∨ ascii.digit b = true) := by
      rw [List.forall_mem_cons, List.forall_mem_cons, List.forall_mem_singleton]
      decide
    exact hnone b hb (byte_of_mem_toString hmem)
  exact plain_iff.mpr ⟨List.ne_nil_of_mem (point_mem_toString q),
    hno sp (by decide), hno nul (by decide), hno pct (by decide)⟩

/-- A platform for examples: doubles are rationals, printed as above.  There is
    none for infinities and NaN. -/
def ratPlatform : Platform ℚ where
  longBits := 64
  erange _ := true
  nearest v := match v.magnitude with
    | .number q => if v.neg then -q else q
    | _ => 0
  fmtDouble := stdToString
  toStringDouble := stdToString

end Scores

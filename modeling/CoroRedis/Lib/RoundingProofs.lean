import Mathlib.Algebra.Order.Floor.Ring
import Mathlib.Algebra.Order.Field.Basic
import Mathlib.Algebra.Ring.Int.Parity
import Mathlib.Tactic.Linarith

/-! # Rounding to the nearest integer, ties to even

    Between an integer and the next there is one midpoint, and the parity of
    the integer says on which side of the rounding the midpoint is.
    `RoundsDown k q` says that `q` is below the midpoint above `k`, as the
    rounding sees it.

    * `roundEven_le_iff` — rounding is below `k` iff the number is;
    * `roundEven_lt_iff` — two numbers are still apart after rounding iff a
      midpoint lies between them;
    * `roundEven_neg` — rounding commutes with the sign. -/

namespace Rounding

variable {K : Type} [Field K] [LinearOrder K] [IsStrictOrderedRing K]

/-- Below the midpoint above `k`, or on it if `k` is even. -/
def RoundsDown (k : ℤ) (q : K) : Prop :=
  q < k + 1 / 2 ∨ (q = k + 1 / 2 ∧ Even k)

instance (k : ℤ) (q : K) : Decidable (RoundsDown k q) :=
  inferInstanceAs (Decidable (_ ∨ (_ ∧ _)))

omit [IsStrictOrderedRing K] in
theorem RoundsDown.le {k : ℤ} {q : K} (h : RoundsDown k q) : q ≤ k + 1 / 2 := by
  rcases h with hlt | ⟨heq, -⟩
  · exact hlt.le
  · exact heq.le

omit [IsStrictOrderedRing K] in
theorem le_of_not_roundsDown {k : ℤ} {q : K} (h : ¬ RoundsDown k q) :
    (k : K) + 1 / 2 ≤ q :=
  le_of_not_gt fun hlt => h (Or.inl hlt)

omit [IsStrictOrderedRing K] in
/-- What is below such a number is below the midpoint as well. -/
theorem RoundsDown.mono {k : ℤ} {q q' : K} (hq : q ≤ q') (h : RoundsDown k q') :
    RoundsDown k q := by
  rcases h with hlt | ⟨rfl, hk⟩
  · exact Or.inl (hq.trans_lt hlt)
  · rcases hq.lt_or_eq with hlt | rfl
    · exact Or.inl hlt
    · exact Or.inr ⟨rfl, hk⟩

/-- The midpoint seen from the other side of zero. -/
theorem roundsDown_neg (k : ℤ) (q : K) :
    RoundsDown k (-q) ↔ ¬ RoundsDown (-k - 1) q := by
  have hcast : ((-k - 1 : ℤ) : K) + 1 / 2 = -((k : K) + 1 / 2) := by
    push_cast
    linarith
  have heven : Even (-k - 1) ↔ ¬ Even k := by
    rw [Int.even_sub_one, even_neg]
  rw [RoundsDown, RoundsDown, hcast, heven, not_or, not_and, not_not, not_lt]
  constructor
  · rintro (hlt | ⟨heq, hk⟩)
    · refine ⟨by linarith, fun heq => ?_⟩
      rw [heq, neg_neg] at hlt
      exact absurd hlt (lt_irrefl _)
    · exact ⟨by linarith, fun _ => hk⟩
  · rintro ⟨hle, hk⟩
    rcases hle.lt_or_eq with hlt | heq
    · exact Or.inl (by linarith)
    · exact Or.inr ⟨by linarith, hk heq.symm⟩

variable [FloorRing K]

/-- The nearest integer, the even one if there are two. -/
def roundEven (q : K) : ℤ := if RoundsDown ⌊q⌋ q then ⌊q⌋ else ⌊q⌋ + 1

/-- **ROUNDING**: it is at most `k` iff the number is on the lower side of the
    midpoint above `k`. -/
theorem roundEven_le_iff (q : K) (k : ℤ) : roundEven q ≤ k ↔ RoundsDown k q := by
  have hlo : (⌊q⌋ : K) ≤ q := Int.floor_le q
  have hhi : q < (⌊q⌋ : K) + 1 := Int.lt_floor_add_one q
  have hbounds : ⌊q⌋ ≤ roundEven q ∧ roundEven q ≤ ⌊q⌋ + 1 := by
    rw [roundEven]
    split_ifs <;> omega
  rcases lt_trichotomy k ⌊q⌋ with hk | rfl | hk
  · -- the next integer is not above the number
    have hnext : (k : K) + 1 ≤ ⌊q⌋ := by exact_mod_cast hk
    refine iff_of_false (by omega) fun hdown => ?_
    linarith [hdown.le]
  · rw [roundEven]
    split_ifs with hdown
    · exact iff_of_true le_rfl hdown
    · exact iff_of_false (by omega) hdown
  · have hnext : (⌊q⌋ : K) + 1 ≤ k := by exact_mod_cast hk
    exact iff_of_true (by omega) (Or.inl (by linarith))

/-- **APART AFTER ROUNDING**: exactly if a midpoint lies between. -/
theorem roundEven_lt_iff (s t : K) :
    roundEven s < roundEven t ↔ ∃ k, RoundsDown k s ∧ ¬ RoundsDown k t := by
  constructor
  · intro h
    refine ⟨roundEven s, (roundEven_le_iff s _).mp le_rfl, fun ht => ?_⟩
    exact absurd ((roundEven_le_iff t _).mpr ht) (not_le_of_gt h)
  · rintro ⟨k, hs, ht⟩
    rw [← roundEven_le_iff] at hs ht
    omega

theorem roundEven_neg (q : K) : roundEven (-q) = -roundEven q := by
  -- the two have the same upper bounds
  have hbound : ∀ k, roundEven (-q) ≤ k ↔ -roundEven q ≤ k := by
    intro k
    rw [roundEven_le_iff, roundsDown_neg, ← roundEven_le_iff]
    omega
  exact le_antisymm ((hbound _).mpr le_rfl) ((hbound _).mp le_rfl)

theorem roundEven_nonneg {q : K} (h : 0 ≤ q) : 0 ≤ roundEven q := by
  have hno : ¬ RoundsDown (-1) q := by
    intro hdown
    have hle := hdown.le
    push_cast at hle
    linarith
  rw [← roundEven_le_iff] at hno
  omega

/-- Numbers more than 1 apart stay apart. -/
theorem roundsDown_of_gap {s t : K} (h : s + 1 < t) :
    ∃ k, RoundsDown k s ∧ ¬ RoundsDown k t := by
  have hdown : RoundsDown (roundEven s) s := (roundEven_le_iff s _).mp le_rfl
  -- one midpoint further down the number is above
  have hlow : ((roundEven s - 1 : ℤ) : K) + 1 / 2 ≤ s := by
    refine le_of_not_roundsDown fun hlt => ?_
    rw [← roundEven_le_iff] at hlt
    omega
  push_cast at hlow
  refine ⟨roundEven s, hdown, fun ht => ?_⟩
  linarith [ht.le]

end Rounding

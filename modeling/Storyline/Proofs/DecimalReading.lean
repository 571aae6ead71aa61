import Mathlib.Tactic.Ring
import Storyline.Proofs.NearestPoint
import Storyline.Proofs.Places

/-! # What a decimal is read as

The shortcuts of reading a decimal concern only what is rounded away or out of range, so a decimal
is always read as the double that its exact value is rounded to. The size is rounded as if the
exponent had no upper end, and what then reaches the limit is infinite.
-/
namespace Storyline.Number

/-- A decimal of half a unit or more is not skipped as too small. -/
theorem places_lt_of_half {coefficient places : ℕ}
    (h : 10 ^ places ≤ coefficient * (2 * unitsPerOne)) : 3 * places < coefficient.log2 + 1076 := by
  have hdouble : 2 ^ (coefficient.log2 + 1) * (2 * unitsPerOne) =
      2 ^ (coefficient.log2 + 1074 + 2) := by
    unfold unitsPerOne
    generalize 1074 = k
    rw [Nat.pow_eq]
    ring
  have hpowers : 2 ^ (3 * places) < 2 ^ (coefficient.log2 + 1074 + 2) :=
    calc 2 ^ (3 * places)
        = 8 ^ places := Nat.pow_mul 2 3 places
      _ ≤ 10 ^ places := Nat.pow_le_pow_left (by decide) places
      _ ≤ coefficient * (2 * unitsPerOne) := h
      _ < 2 ^ (coefficient.log2 + 1) * (2 * unitsPerOne) :=
        Nat.mul_lt_mul_of_pos_right Nat.lt_log2_self (Nat.mul_pos (by decide) unitsPerOne_pos)
      _ = 2 ^ (coefficient.log2 + 1074 + 2) := hdouble
  exact (Nat.pow_lt_pow_iff_right (by decide)).mp hpowers

theorem unitLimit_le_of_large {coefficient places : ℕ} (hcoefficient : coefficient ≠ 0)
    (hplaces : 400 < places) : unitLimit ≤ coefficient * 10 ^ places * unitsPerOne := by
  have hlimit : unitLimit ≤ Nat.pow 10 401 * unitsPerOne := by decide +kernel
  have hleast : 401 ≤ places := hplaces
  -- the power of 401 places is too long to be written out
  generalize 401 = k at hlimit hleast
  have hpower : 10 ^ k ≤ coefficient * 10 ^ places :=
    (Nat.pow_le_pow_right (by decide) hleast).trans
      (Nat.le_mul_of_pos_left _ (Nat.pos_of_ne_zero hcoefficient))
  exact hlimit.trans (Nat.mul_le_mul_right _ hpower)

namespace Binary64

variable {negative : Bool}

theorem round_congr {num den other den' : ℕ} (h : toGrid num den = toGrid other den') :
    round negative num den = round negative other den' := by
  simp only [round, h]

theorem round_of_limit {num : ℕ} (h : unitLimit ≤ num) :
    round negative num 1 = .infinite negative := by
  refine dif_neg (Nat.not_lt.mpr (le_toGrid Nat.one_pos unitLimit_onGrid ?_))
  rwa [Nat.mul_one]

/-- The shortcuts lead to what rounding leads to. -/
theorem ofDecimal_eq_round (negative : Bool) (coefficient : ℕ) (exponent : ℤ) :
    ofDecimal negative coefficient exponent =
      round negative (coefficient * 10 ^ exponent.toNat * unitsPerOne)
        (10 ^ (-exponent).toNat) := by
  by_cases hzero : coefficient = 0
  · rw [ofDecimal, if_pos hzero, zero, hzero, Nat.zero_mul, Nat.zero_mul]
    exact round_congr ((toGrid_zero 1).trans (toGrid_zero _).symm)
  rcases lt_or_ge exponent 0 with hneg | hnonneg
  · have hwhole : exponent.toNat = 0 := by omega
    have hplaces : exponent.natAbs = (-exponent).toNat := by omega
    rw [ofDecimal, if_neg hzero, if_neg (by omega), if_pos hneg, hplaces, hwhole, Nat.pow_zero,
      Nat.mul_one]
    split
    · next htiny =>
      have hsmall : 2 * (coefficient * unitsPerOne) < 10 ^ (-exponent).toNat := by
        by_contra hlarge
        have hhalf := Nat.le_of_not_lt hlarge
        rw [Nat.mul_left_comm] at hhalf
        have := places_lt_of_half hhalf
        omega
      rw [zero]
      exact round_congr ((toGrid_zero 1).trans (toGrid_of_lt_half hsmall).symm)
    · rfl
  · have hplaces : (-exponent).toNat = 0 := by omega
    have hwhole : exponent.natAbs = exponent.toNat := by omega
    rw [ofDecimal, if_neg hzero, hplaces, Nat.pow_zero]
    split
    · next hlarge =>
      exact (round_of_limit (unitLimit_le_of_large hzero (by omega))).symm
    · rw [if_neg (by omega), if_neg (by omega), hwhole, Nat.pow_eq]

/-- The double that the number of this sign and of size `q` is rounded to. -/
inductive Rounds (negative : Bool) (q : ℚ) : Binary64 → Prop where
  | finite {size : Magnitude} : RoundsTo (q * unitsPerOne) size.units →
      Rounds negative q (.finite negative size)
  | infinite {g} : RoundsTo (q * unitsPerOne) g → unitLimit ≤ g →
      Rounds negative q (.infinite negative)

theorem Rounds.unique {q : ℚ} {x y : Binary64} (hx : Rounds negative q x)
    (hy : Rounds negative q y) : x = y := by
  cases hx with
  | @finite size h =>
    cases hy with
    | @finite size' h' =>
      obtain ⟨units, _, _⟩ := size
      obtain ⟨units', _, _⟩ := size'
      cases h.unique h'
      rfl
    | infinite h' hlimit =>
      have := h.unique h'
      have := size.bounded
      omega
  | infinite h hlimit =>
    cases hy with
    | @finite size h' =>
      have := h.unique h'
      have := size.bounded
      omega
    | infinite => rfl

theorem round_rounds {num den : ℕ} {q : ℚ} (hden : 0 < den)
    (hq : q * unitsPerOne = (num : ℚ) / den) : Rounds negative q (round negative num den) := by
  have hround : RoundsTo (q * unitsPerOne) (toGrid num den) := hq ▸ roundsTo_toGrid hden
  unfold round
  split
  · exact .finite hround
  · next hlimit => exact .infinite hround (Nat.le_of_not_lt hlimit)

theorem zpow_ten (exponent : ℤ) :
    (10 : ℚ) ^ exponent = 10 ^ exponent.toNat / 10 ^ (-exponent).toNat := by
  rcases lt_or_ge exponent 0 with hneg | hnonneg
  · have hwhole : exponent.toNat = 0 := by omega
    have hplaces : exponent = -((-exponent).toNat : ℤ) := by omega
    rw [hwhole, pow_zero, one_div]
    conv_lhs => rw [hplaces]
    rw [zpow_neg, zpow_natCast]
  · have hplaces : (-exponent).toNat = 0 := by omega
    have hwhole : exponent = (exponent.toNat : ℤ) := by omega
    rw [hplaces, pow_zero, div_one]
    conv_lhs => rw [hwhole]
    rw [zpow_natCast]

theorem ofDecimal_rounds (negative : Bool) (coefficient : ℕ) (exponent : ℤ) :
    Rounds negative (coefficient * (10 : ℚ) ^ exponent)
      (ofDecimal negative coefficient exponent) := by
  rw [ofDecimal_eq_round]
  refine round_rounds (Nat.pow_pos (by decide)) ?_
  rw [zpow_ten]
  push_cast
  ring

end Binary64
end Storyline.Number

/-! # Rounding to 53 significant bits

A grid point is a number with at most 53 significant bits. A quotient is rounded to the nearest
grid point, and of two equally near ones to the one with the even significand.
-/
namespace Storyline.Number

/-- The integer nearest to `num / den`; a half goes to the even neighbour. -/
def nearest (num den : Nat) : Nat :=
  if 2 * (num % den) < den ∨ (2 * (num % den) = den ∧ num / den % 2 = 0) then num / den
  else num / den + 1

/-- The distance between grid points at `n`. -/
def spacing (n : Nat) : Nat := Nat.pow 2 (n.log2 - 52)

/-- The grid point nearest to `num / den`. -/
def toGrid (num den : Nat) : Nat :=
  nearest num (den * spacing (num / den)) * spacing (num / den)

theorem le_nearest (num den : Nat) : num / den ≤ nearest num den := by
  unfold nearest
  split <;> omega

theorem nearest_le (num den : Nat) : nearest num den ≤ num / den + 1 := by
  unfold nearest
  split <;> omega

theorem spacing_pos (n : Nat) : 0 < spacing n := Nat.two_pow_pos _

theorem div_spacing_lt (n : Nat) : n / spacing n < Nat.pow 2 53 := by
  rw [Nat.div_lt_iff_lt_mul (spacing_pos n), spacing, Nat.pow_eq, Nat.pow_eq, ← Nat.pow_add]
  exact Nat.lt_of_lt_of_le Nat.lt_log2_self (Nat.pow_le_pow_right (by decide) (by omega))

theorem le_div_spacing {n : Nat} (h : 52 ≤ n.log2) : Nat.pow 2 52 ≤ n / spacing n := by
  have hn : n ≠ 0 := by
    rintro rfl
    simp at h
  rw [Nat.le_div_iff_mul_le (spacing_pos n), spacing, Nat.pow_eq, Nat.pow_eq, ← Nat.pow_add,
    show 52 + (n.log2 - 52) = n.log2 by omega]
  exact Nat.log2_self_le hn

private theorem spacing_dvd_mul (m k : Nat) (hm : m ≤ Nat.pow 2 53)
    (hk : k = 0 ∨ Nat.pow 2 52 ≤ m) : spacing (m * Nat.pow 2 k) ∣ m * Nat.pow 2 k := by
  simp only [spacing, Nat.pow_eq] at hm hk ⊢
  rcases Nat.lt_or_eq_of_le hm with hlt | rfl
  · have hlog : (m * 2 ^ k).log2 - 52 ≤ k := by
      rcases Nat.eq_zero_or_pos m with rfl | hpos
      · simp
      · have hb : m * 2 ^ k < 2 ^ (53 + k) := by
          rw [Nat.pow_add]
          exact Nat.mul_lt_mul_of_pos_right hlt (Nat.two_pow_pos k)
        have hz : m * 2 ^ k ≠ 0 := Nat.mul_ne_zero (by omega) (Nat.ne_of_gt (Nat.two_pow_pos k))
        have := (Nat.log2_lt hz).mpr hb
        omega
    exact Nat.dvd_trans (Nat.pow_dvd_pow 2 hlog) (Nat.dvd_mul_left _ _)
  · rw [← Nat.pow_add, Nat.log2_two_pow]
    exact Nat.pow_dvd_pow 2 (by omega)

theorem spacing_dvd_toGrid (num den : Nat) : spacing (toGrid num den) ∣ toGrid num den := by
  have hd : num / (den * spacing (num / den)) = num / den / spacing (num / den) :=
    (Nat.div_div_eq_div_mul ..).symm
  have hlo := le_nearest num (den * spacing (num / den))
  have hhi := nearest_le num (den * spacing (num / den))
  have hb := div_spacing_lt (num / den)
  rw [hd] at hlo hhi
  unfold toGrid
  refine spacing_dvd_mul _ ((num / den).log2 - 52) (by omega) ?_
  by_cases h : 52 ≤ (num / den).log2
  · have := le_div_spacing h
    right
    omega
  · left
    omega

end Storyline.Number

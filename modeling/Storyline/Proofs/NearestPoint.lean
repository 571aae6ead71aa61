import Mathlib.Algebra.Order.Field.Rat
import Mathlib.Algebra.Order.Ring.Abs
import Mathlib.Data.Rat.Cast.Order
import Mathlib.Tactic.FieldSimp
import Mathlib.Tactic.Linarith
import Storyline.Proofs.BitPatterns

/-! # The nearest number of 53 bits

Rounding told without the way it is computed: a rational number of units is rounded to the nearest
one of the numbers whose significand has 53 bits, and of two as near to the one with the even
significand. There is one such number for each rational, and a greater rational is not rounded to a
smaller one, so the rationals that are rounded to one number have no gap between them.
-/
namespace Storyline.Number

/-- A number of units with a significand of 53 bits at most. The exponent has no upper end here. -/
def Representable (g : ℕ) : Prop := ∃ m k, Significand g m k

/-- The number `g` is what `q` is rounded to. -/
structure RoundsTo (q : ℚ) (g : ℕ) : Prop where
  representable : Representable g
  nearest : ∀ h, Representable h → |(g : ℚ) - q| ≤ |(h : ℚ) - q|
  even : ∀ h, Representable h → h ≠ g → |(h : ℚ) - q| = |(g : ℚ) - q| →
    ∀ m k, Significand g m k → m % 2 = 0

theorem add_le_of_dvd {s g h : ℕ} (hg : s ∣ g) (hh : s ∣ h) (hlt : g < h) : g + s ≤ h := by
  have := Nat.le_of_dvd (Nat.sub_pos_of_lt hlt) (Nat.dvd_sub hh hg)
  omega

section Significand

variable {g m n k l : ℕ}

theorem significand_of_dvd (hg : spacing g ∣ g) :
    Significand g (g / spacing g) (g.log2 - 52) where
  units_eq := (Nat.div_mul_cancel hg).symm
  below := div_spacing_lt g
  normal := by
    by_cases hlog : 52 ≤ g.log2
    · exact Or.inr (le_div_spacing hlog)
    · exact Or.inl (by omega)

theorem Significand.onGrid (h : Significand g m k) : spacing g ∣ g := by
  have hspacing : spacing g = 2 ^ k := by rw [spacing, h.log2_eq, Nat.pow_eq]
  rw [hspacing, h.units_eq]
  exact Nat.dvd_mul_left _ _

theorem representable_iff : Representable g ↔ spacing g ∣ g := by
  constructor
  · rintro ⟨m, k, h⟩
    exact h.onGrid
  · intro h
    exact ⟨_, _, significand_of_dvd h⟩

theorem Significand.unique (h : Significand g m k) (h' : Significand g n l) : m = n ∧ k = l := by
  have hk : k = l := h.log2_eq.symm.trans h'.log2_eq
  subst hk
  exact ⟨h.div_eq.symm.trans h'.div_eq, rfl⟩

theorem Significand.next (h : Significand g m k) (heven : m % 2 = 0) :
    Significand (g + 2 ^ k) (m + 1) k where
  units_eq := by rw [h.units_eq, Nat.succ_mul]
  below := by
    have := h.below
    omega
  normal := by
    rcases h.normal with hk | hm
    · exact Or.inl hk
    · exact Or.inr (by omega)

theorem Significand.step_le (h : Significand g m k) (hn : Representable n) (hlt : g < n) :
    g + 2 ^ k ≤ n := by
  have hspacing : spacing g = 2 ^ k := by rw [spacing, h.log2_eq, Nat.pow_eq]
  rw [← hspacing]
  exact add_le_of_dvd h.onGrid ((spacing_dvd_spacing hlt.le).trans (representable_iff.mp hn)) hlt

end Significand

section Distance

variable {q : ℚ} {g h : ℕ}

theorem sq_distance_sub : ((h : ℚ) - q) ^ 2 - ((g : ℚ) - q) ^ 2 =
    ((h : ℚ) - g) * ((g : ℚ) + h - 2 * q) := by ring

theorem abs_sub_le_iff_middle :
    |(g : ℚ) - q| ≤ |(h : ℚ) - q| ↔
      (g < h → 2 * q ≤ (g : ℚ) + h) ∧ (h < g → (g : ℚ) + h ≤ 2 * q) := by
  rw [← sq_le_sq, ← sub_nonneg, sq_distance_sub]
  rcases Nat.lt_trichotomy g h with hlt | rfl | hgt
  · have hpos : (0 : ℚ) < (h : ℚ) - g := sub_pos.mpr (Nat.cast_lt.mpr hlt)
    rw [mul_nonneg_iff_of_pos_left hpos, sub_nonneg]
    simp [hlt, hlt.not_gt]
  · simp
  · have hneg : (h : ℚ) - g < 0 := sub_neg.mpr (Nat.cast_lt.mpr hgt)
    rw [← neg_mul_neg, mul_nonneg_iff_of_pos_left (neg_pos.mpr hneg), neg_nonneg, sub_nonpos]
    simp [hgt, hgt.not_gt]

theorem abs_sub_eq_iff_middle (hne : h ≠ g) :
    |(h : ℚ) - q| = |(g : ℚ) - q| ↔ (g : ℚ) + h = 2 * q := by
  have hcast : (h : ℚ) - g ≠ 0 := sub_ne_zero.mpr (Nat.cast_injective.ne hne)
  rw [← sq_eq_sq_iff_abs_eq_abs, ← sub_eq_zero, sq_distance_sub, mul_eq_zero, or_iff_right hcast,
    sub_eq_zero]

end Distance

namespace RoundsTo

variable {q r : ℚ} {g h : ℕ}

theorem le_middle (hg : RoundsTo q g) (hh : Representable h) (hlt : g < h) :
    2 * q ≤ (g : ℚ) + h := (abs_sub_le_iff_middle.mp (hg.nearest h hh)).1 hlt

theorem middle_le (hg : RoundsTo q g) (hh : Representable h) (hlt : h < g) :
    (g : ℚ) + h ≤ 2 * q := (abs_sub_le_iff_middle.mp (hg.nearest h hh)).2 hlt

theorem even_of_middle (hg : RoundsTo q g) (hh : Representable h) (hne : h ≠ g)
    (hmiddle : (g : ℚ) + h = 2 * q) {m k : ℕ} (hm : Significand g m k) : m % 2 = 0 :=
  hg.even h hh hne ((abs_sub_eq_iff_middle hne).mpr hmiddle) m k hm

/-- Two numbers do not meet in the middle: between two even significands there is an odd one. -/
theorem not_both (hg : RoundsTo q g) (hh : RoundsTo q h) (hlt : h < g) : False := by
  have hbelow := hg.middle_le hh.representable hlt
  have habove := hh.le_middle hg.representable hlt
  have hmiddle : (g : ℚ) + h = 2 * q := by linarith
  obtain ⟨m, k, hm⟩ := hh.representable
  have heven : m % 2 = 0 :=
    hh.even_of_middle hg.representable hlt.ne' (by linarith) hm
  have hnext := hm.next heven
  rcases Nat.lt_or_eq_of_le (hm.step_le hg.representable hlt) with hinside | hsame
  · have hstep : h < h + 2 ^ k := Nat.lt_add_of_pos_right (Nat.two_pow_pos k)
    have hcloser := hh.le_middle ⟨_, _, hnext⟩ hstep
    have hinside' : ((h + 2 ^ k : ℕ) : ℚ) < g := Nat.cast_lt.mpr hinside
    linarith
  · have hodd := hg.even_of_middle hh.representable hlt.ne hmiddle (hsame ▸ hnext)
    omega

theorem mono (hg : RoundsTo q g) (hh : RoundsTo r h) (hle : q ≤ r) : g ≤ h := by
  by_contra hlt
  have hlt : h < g := Nat.lt_of_not_le hlt
  have hbelow := hg.middle_le hh.representable hlt
  have habove := hh.le_middle hg.representable hlt
  have hsame : q = r := by linarith
  exact not_both hg (hsame ▸ hh) hlt

theorem unique (hg : RoundsTo q g) (hh : RoundsTo q h) : g = h :=
  Nat.le_antisymm (hg.mono hh le_rfl) (hh.mono hg le_rfl)

end RoundsTo

theorem nearest_half (num : ℕ) {den : ℕ} (hden : 0 < den) :
    2 * (nearest num den * den) ≤ 2 * num + den ∧ 2 * num ≤ 2 * (nearest num den * den) + den ∧
      (2 * (nearest num den * den) = 2 * num + den ∨ 2 * num = 2 * (nearest num den * den) + den →
        nearest num den % 2 = 0) := by
  have hsplit := Nat.div_add_mod num den
  have hmod := Nat.mod_lt num hden
  rw [Nat.mul_comm] at hsplit
  have hnext : (num / den + 1) * den = num / den * den + den := Nat.succ_mul _ _
  unfold nearest
  split <;> omega

section Grid

variable {num den h : ℕ}

theorem spacing_dvd_of_binade (hh : spacing h ∣ h) (hbinade : 2 ^ (num / den).log2 ≤ h) :
    spacing (num / den) ∣ h := by
  have hpos : h ≠ 0 := by
    rintro rfl
    exact absurd hbinade (Nat.two_pow_pos _).not_ge
  have hlog := (Nat.le_log2 hpos).mpr hbinade
  exact (Nat.pow_dvd_pow 2 (Nat.sub_le_sub_right hlog 52)).trans hh

theorem binade_onGrid (n : ℕ) : spacing (2 ^ n) ∣ 2 ^ n := by
  simpa using onGrid_of_bits (m := 1) (by omega) ⟨n, rfl⟩

theorem toGrid_half (num : ℕ) (hden : 0 < den) :
    2 * (toGrid num den * den) ≤ 2 * num + den * spacing (num / den) ∧
      2 * num ≤ 2 * (toGrid num den * den) + den * spacing (num / den) := by
  obtain ⟨hbelow, habove, _⟩ := nearest_half num (Nat.mul_pos hden (spacing_pos (num / den)))
  rw [toGrid_steps] at hbelow habove
  exact ⟨hbelow, habove⟩

theorem binade_le_toGrid (hden : 0 < den) (hquotient : num / den ≠ 0) :
    2 ^ (num / den).log2 ≤ toGrid num den := by
  refine le_toGrid hden (binade_onGrid _) ?_
  exact (Nat.mul_le_mul_right den (Nat.log2_self_le hquotient)).trans (Nat.div_mul_le_self num den)

theorem spacing_dvd_self (num den : ℕ) : spacing (num / den) ∣ toGrid num den :=
  Nat.dvd_mul_left _ _

theorem step_above (hden : 0 < den) (hh : spacing h ∣ h) (hlt : toGrid num den < h) :
    2 * (toGrid num den * den) + den * spacing (num / den) ≤ (toGrid num den + h) * den := by
  have hdvd : spacing (num / den) ∣ h := by
    by_cases hquotient : num / den = 0
    · rw [hquotient]
      exact Nat.one_dvd h
    · exact spacing_dvd_of_binade hh ((binade_le_toGrid hden hquotient).trans hlt.le)
  have hstep := Nat.mul_le_mul_right den (add_le_of_dvd (spacing_dvd_self num den) hdvd hlt)
  rw [Nat.add_mul] at hstep ⊢
  rw [Nat.mul_comm den]
  omega

/-- A grid point below lies a whole step away, or it is in a lower binade. Then the power of two
between the binades is a grid point that is nearer. -/
theorem step_below (hden : 0 < den) (hh : spacing h ∣ h) (hlt : h < toGrid num den) :
    (toGrid num den + h) * den + den * spacing (num / den) ≤ 2 * (toGrid num den * den) ∨
      (toGrid num den + h) * den < 2 * num := by
  have hself := spacing_dvd_self num den
  by_cases hdvd : spacing (num / den) ∣ h
  · have hstep := Nat.mul_le_mul_right den (add_le_of_dvd hdvd hself hlt)
    rw [Nat.add_mul] at hstep ⊢
    rw [Nat.mul_comm den]
    exact Or.inl (by omega)
  · have hbinade : h < 2 ^ (num / den).log2 :=
      Nat.lt_of_not_le (mt (spacing_dvd_of_binade hh) hdvd)
    have hbelow : h * den < 2 ^ (num / den).log2 * den := Nat.mul_lt_mul_of_pos_right hbinade hden
    have hquotient : num / den ≠ 0 := by
      intro hzero
      rw [hzero] at hdvd
      exact hdvd (Nat.one_dvd h)
    have hpower : 2 ^ (num / den).log2 * den ≤ num :=
      (Nat.mul_le_mul_right den (Nat.log2_self_le hquotient)).trans (Nat.div_mul_le_self num den)
    have hhalf := (toGrid_half num hden).1
    right
    rw [Nat.add_mul]
    rcases Nat.lt_or_eq_of_le (binade_le_toGrid hden hquotient) with hinside | hsame
    · have hpowerDvd : spacing (num / den) ∣ 2 ^ (num / den).log2 :=
        Nat.pow_dvd_pow 2 (Nat.sub_le _ _)
      have hstep := Nat.mul_le_mul_right den (add_le_of_dvd hpowerDvd hself hinside)
      rw [Nat.add_mul, Nat.mul_comm (spacing _)] at hstep
      omega
    · rw [hsame] at hbelow hpower
      omega

theorem toGrid_even {m k : ℕ} (hden : 0 < den)
    (htie : 2 * (toGrid num den * den) = 2 * num + den * spacing (num / den) ∨
      2 * num = 2 * (toGrid num den * den) + den * spacing (num / den))
    (hm : Significand (toGrid num den) m k) : m % 2 = 0 := by
  have hsteps := (nearest_half num (Nat.mul_pos hden (spacing_pos (num / den)))).2.2
  rw [toGrid_steps] at hsteps
  replace hsteps := hsteps htie
  have hunits : toGrid num den =
      nearest num (den * spacing (num / den)) * 2 ^ ((num / den).log2 - 52) := rfl
  have hquotient : num / (den * spacing (num / den)) = num / den / spacing (num / den) :=
    (Nat.div_div_eq_div_mul ..).symm
  have hlower := le_nearest num (den * spacing (num / den))
  have hupper := nearest_le num (den * spacing (num / den))
  have hbits := div_spacing_lt (num / den)
  rw [hquotient] at hlower hupper
  rw [Nat.pow_eq] at hbits
  generalize nearest num (den * spacing (num / den)) = steps at *
  rcases Nat.lt_or_eq_of_le (show steps ≤ 2 ^ 53 by omega) with hlt | htop
  · have hnormal : (num / den).log2 - 52 = 0 ∨ 2 ^ 52 ≤ steps := by
      by_cases hlog : 52 ≤ (num / den).log2
      · exact Or.inr ((le_div_spacing hlog).trans hlower)
      · exact Or.inl (by omega)
    have hsignificand : Significand (toGrid num den) steps ((num / den).log2 - 52) :=
      ⟨hunits, hlt, hnormal⟩
    rw [(hm.unique hsignificand).1]
    exact hsteps
  · -- the number has grown to the next binade
    have hsignificand : Significand (toGrid num den) (2 ^ 52) ((num / den).log2 - 52 + 1) :=
      ⟨by rw [hunits, htop]; ring, by decide, Or.inr le_rfl⟩
    rw [(hm.unique hsignificand).1]
    rfl

end Grid

section Quotient

variable {num den : ℕ}

theorem two_mul_quotient (hden : 0 < den) {n : ℕ} :
    (n : ℚ) ≤ 2 * ((num : ℚ) / den) ↔ n * den ≤ 2 * num := by
  have hpos : (0 : ℚ) < den := Nat.cast_pos.mpr hden
  rw [← mul_div_assoc, le_div_iff₀ hpos]
  exact_mod_cast Iff.rfl

theorem quotient_two_mul (hden : 0 < den) {n : ℕ} :
    2 * ((num : ℚ) / den) ≤ (n : ℚ) ↔ 2 * num ≤ n * den := by
  have hpos : (0 : ℚ) < den := Nat.cast_pos.mpr hden
  rw [← mul_div_assoc, div_le_iff₀ hpos]
  exact_mod_cast Iff.rfl

theorem roundsTo_toGrid (hden : 0 < den) : RoundsTo ((num : ℚ) / den) (toGrid num den) := by
  obtain ⟨hlower, hupper⟩ := toGrid_half num hden
  refine ⟨representable_iff.mpr (spacing_dvd_toGrid num den), fun h hh => ?_, ?_⟩
  · rw [representable_iff] at hh
    rw [abs_sub_le_iff_middle]
    constructor
    · intro hlt
      have := step_above hden hh hlt
      exact_mod_cast (quotient_two_mul hden).mpr (by omega)
    · intro hlt
      have := step_below hden hh hlt
      exact_mod_cast (two_mul_quotient hden).mpr (by omega)
  · intro h hh hne htie m k hm
    rw [representable_iff] at hh
    rw [abs_sub_eq_iff_middle hne] at htie
    have hmiddle : (toGrid num den + h) * den = 2 * num := by
      refine Nat.le_antisymm ((two_mul_quotient hden).mp ?_) ((quotient_two_mul hden).mp ?_)
      · push_cast
        exact htie.le
      · push_cast
        exact htie.ge
    refine toGrid_even hden ?_ hm
    rcases Nat.lt_or_gt_of_ne hne with hlt | hlt
    · have := step_below hden hh hlt
      omega
    · have := step_above hden hh hlt
      omega

theorem exists_quotient {q : ℚ} (hq : 0 ≤ q) : ∃ num den : ℕ, 0 < den ∧ q = (num : ℚ) / den := by
  refine ⟨q.num.toNat, q.den, q.den_pos, ?_⟩
  have hnum : ((q.num.toNat : ℤ) : ℚ) = q.num := by
    rw [Int.toNat_of_nonneg (Rat.num_nonneg.mpr hq)]
  rw [← Int.cast_natCast, hnum, Rat.num_div_den]

theorem exists_roundsTo {q : ℚ} (hq : 0 ≤ q) : ∃ g, RoundsTo q g := by
  obtain ⟨num, den, hden, rfl⟩ := exists_quotient hq
  exact ⟨_, roundsTo_toGrid hden⟩

theorem roundsTo_quotient_iff (hden : 0 < den) {g : ℕ} :
    RoundsTo ((num : ℚ) / den) g ↔ toGrid num den = g := by
  constructor
  · exact (roundsTo_toGrid hden).unique
  · rintro rfl
    exact roundsTo_toGrid hden

theorem RoundsTo.between {a b c : ℚ} {g : ℕ} (ha : RoundsTo a g) (hc : RoundsTo c g) (hb : 0 ≤ b)
    (hab : a ≤ b) (hbc : b ≤ c) : RoundsTo b g := by
  obtain ⟨h, hh⟩ := exists_roundsTo hb
  rwa [Nat.le_antisymm (ha.mono hh hab) (hh.mono hc hbc)]

end Quotient

end Storyline.Number

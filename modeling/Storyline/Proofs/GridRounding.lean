import Mathlib.Tactic.Linarith
import Mathlib.Tactic.Ring
import Storyline.Number.Rounding

/-! # What rounding keeps

Rounding never crosses a grid point, and it keeps a distance: above 2⁵² units a number that lies
below a grid point by one part in 2⁵³ or more is rounded to something less. At 2⁵² units and below,
where the grid has no fraction of a unit, one part in 2⁵³ is rounded away.
-/
namespace Storyline.Number

section Nearest

variable {num den m : Nat}

theorem le_nearest_of_le (hden : 0 < den) (h : m * den ≤ num) : m ≤ nearest num den :=
  ((Nat.le_div_iff_mul_le hden).mpr h).trans (le_nearest num den)

theorem nearest_le_of_le (hden : 0 < den) (h : num ≤ m * den) : nearest num den ≤ m := by
  have hdiv : num / den ≤ m := Nat.div_le_of_le_mul (by rwa [Nat.mul_comm])
  have hsplit := Nat.div_add_mod num den
  rcases Nat.lt_or_eq_of_le hdiv with hlt | heq
  · have := nearest_le num den
    omega
  · have hexact : num % den = 0 := by
      rw [heq, Nat.mul_comm] at hsplit
      omega
    simp [nearest, hexact, hden, heq]

theorem nearest_lt (h : 2 * num + den < 2 * (m * den)) : nearest num den < m := by
  have hsplit := Nat.div_add_mod num den
  have hdiv : num / den < m := Nat.div_lt_of_lt_mul (by rw [Nat.mul_comm]; omega)
  unfold nearest
  split
  · exact hdiv
  · next hup =>
    rcases Nat.lt_or_eq_of_le (Nat.succ_le_of_lt hdiv) with hlt | heq
    · exact hlt
    · have hm : m * den = den * (num / den) + den := by
        rw [← heq, Nat.succ_mul, Nat.mul_comm]
      omega

theorem mul_le_or_next_le (m k den : Nat) : m * den ≤ k * den ∨ k * den + den ≤ m * den := by
  rcases Nat.lt_or_ge k m with h | h
  · exact Or.inr (by simpa [Nat.succ_mul] using Nat.mul_le_mul_right den (Nat.succ_le_of_lt h))
  · exact Or.inl (Nat.mul_le_mul_right den h)

/-- Less than half a step below `m` the nearest integer is not less, nor is it half a step below an
even one. -/
theorem le_nearest_of_close (hden : 0 < den)
    (h : 2 * (m * den) < 2 * num + den ∨ 2 * (m * den) = 2 * num + den ∧ m % 2 = 0) :
    m ≤ nearest num den := by
  have hsplit := Nat.div_add_mod num den
  have hmod := Nat.mod_lt num hden
  rw [Nat.mul_comm] at hsplit
  by_cases hdiv : m ≤ num / den
  · exact hdiv.trans (le_nearest num den)
  · have hbelow : num / den * den + den ≤ m * den := by
      rw [← Nat.succ_mul]
      exact Nat.mul_le_mul_right den (Nat.lt_of_not_le hdiv)
    have hnext : m = num / den + 1 := by
      rcases mul_le_or_next_le m (num / den + 1) den with hle | hge
      · have := Nat.le_of_mul_le_mul_right hle hden
        omega
      · rw [Nat.succ_mul] at hge
        omega
    have hm : m * den = num / den * den + den := by rw [hnext, Nat.succ_mul]
    rw [nearest, if_neg (by omega)]
    omega

theorem nearest_mono (h : num ≤ m) : nearest num den ≤ nearest m den := by
  rcases Nat.lt_or_eq_of_le (Nat.div_le_div_right (c := den) h) with hlt | heq
  · exact (nearest_le num den).trans (Nat.succ_le_of_lt hlt |>.trans (le_nearest m den))
  · have hnum := Nat.div_add_mod num den
    have hm := Nat.div_add_mod m den
    rw [heq] at hnum
    unfold nearest
    rw [heq]
    split <;> split <;> omega

theorem nearest_mul_right {k : Nat} (hk : 0 < k) :
    nearest (num * k) (den * k) = nearest num den := by
  have hhalf : 2 * (num % den * k) = 2 * (num % den) * k := (Nat.mul_assoc ..).symm
  simp only [nearest, Nat.mul_div_mul_right num den hk, Nat.mul_mod_mul_right, hhalf,
    Nat.mul_lt_mul_right hk, Nat.mul_left_inj hk.ne']

end Nearest

theorem log2_mono {a b : Nat} (h : a ≤ b) : a.log2 ≤ b.log2 := by
  rcases Nat.eq_zero_or_pos a with rfl | hpos
  · simp
  · exact (Nat.le_log2 (by omega)).mpr ((Nat.log2_self_le hpos.ne').trans h)

theorem spacing_dvd_spacing {a b : Nat} (h : a ≤ b) : spacing a ∣ spacing b :=
  Nat.pow_dvd_pow 2 (Nat.sub_le_sub_right (log2_mono h) 52)

theorem onGrid_of_bits {m p : Nat} (hm : m ≤ 2 ^ 53) (hp : ∃ k, p = 2 ^ k) :
    spacing (m * p) ∣ m * p := by
  obtain ⟨k, rfl⟩ := hp
  rcases Nat.lt_or_eq_of_le hm with hlt | rfl
  · rcases Nat.eq_zero_or_pos m with rfl | hpos
    · simp
    · have hbound : m * 2 ^ k < 2 ^ (53 + k) := by
        rw [Nat.pow_add]
        exact Nat.mul_lt_mul_of_pos_right hlt (Nat.two_pow_pos k)
      have hlog := (Nat.log2_lt (Nat.mul_pos hpos (Nat.two_pow_pos k)).ne').mpr hbound
      exact (Nat.pow_dvd_pow 2 (by omega)).trans (Nat.dvd_mul_left _ _)
  · rw [← Nat.pow_add]
    simp only [spacing, Nat.log2_two_pow]
    exact Nat.pow_dvd_pow 2 (Nat.sub_le _ _)

section Grid

variable {num den g : Nat}

theorem toGrid_steps (m : Nat) :
    m * (den * spacing (num / den)) = m * spacing (num / den) * den := by
  ring

theorem toGrid_mul_right {k : Nat} (hk : 0 < k) : toGrid (num * k) (den * k) = toGrid num den := by
  rw [toGrid, toGrid, Nat.mul_div_mul_right num den hk, Nat.mul_right_comm, nearest_mul_right hk]

theorem toGrid_of_lt_half (h : 2 * num < den) : toGrid num den = 0 := by
  have hzero : num / den = 0 := Nat.div_eq_of_lt (by omega)
  have hone : spacing 0 = 1 := rfl
  have hnearest : nearest num den < 1 := nearest_lt (by omega)
  rw [toGrid, hzero, hone, Nat.mul_one, Nat.mul_one]
  omega

theorem le_toGrid_of_dvd (hden : 0 < den) (hg : spacing (num / den) ∣ g) (h : g * den ≤ num) :
    g ≤ toGrid num den := by
  obtain ⟨m, hm⟩ := hg
  rw [Nat.mul_comm] at hm
  rw [hm] at h ⊢
  refine Nat.mul_le_mul_right _ (le_nearest_of_le (Nat.mul_pos hden (spacing_pos _)) ?_)
  rwa [toGrid_steps]

theorem le_toGrid (hden : 0 < den) (hg : spacing g ∣ g) (h : g * den ≤ num) :
    g ≤ toGrid num den := by
  have hle : g ≤ num / den := (Nat.le_div_iff_mul_le hden).mpr h
  rcases Nat.eq_zero_or_pos g with rfl | hpos
  · exact Nat.zero_le _
  have hquotient : num / den ≠ 0 := by omega
  by_cases hbinade : 2 ^ (num / den).log2 ≤ g
  · have hspacing : spacing (num / den) ∣ spacing g := by
      have hlog := (Nat.le_log2 hpos.ne').mpr hbinade
      exact Nat.pow_dvd_pow 2 (Nat.sub_le_sub_right hlog 52)
    exact le_toGrid_of_dvd hden (hspacing.trans hg) h
  · -- the grid may be coarser at the quotient, but the power of two between them is on it
    have hpower : 2 ^ (num / den).log2 * den ≤ num :=
      (Nat.mul_le_mul_right den (Nat.log2_self_le hquotient)).trans (Nat.div_mul_le_self num den)
    have hdvd : spacing (num / den) ∣ 2 ^ (num / den).log2 := Nat.pow_dvd_pow 2 (Nat.sub_le _ _)
    exact (Nat.le_of_not_le hbinade).trans (le_toGrid_of_dvd hden hdvd hpower)

theorem toGrid_le (hden : 0 < den) (hg : spacing g ∣ g) (h : num ≤ g * den) :
    toGrid num den ≤ g := by
  have hle : num / den ≤ g := Nat.div_le_of_le_mul (by rwa [Nat.mul_comm])
  obtain ⟨m, hm⟩ := (spacing_dvd_spacing hle).trans hg
  rw [Nat.mul_comm] at hm
  rw [hm] at h ⊢
  refine Nat.mul_le_mul_right _ (nearest_le_of_le (Nat.mul_pos hden (spacing_pos _)) ?_)
  rwa [toGrid_steps]

theorem toGrid_mono {other : Nat} (hden : 0 < den) (h : num ≤ other) :
    toGrid num den ≤ toGrid other den := by
  have hquotient : num / den ≤ other / den := Nat.div_le_div_right h
  rcases Nat.lt_or_eq_of_le (log2_mono hquotient) with hlt | heq
  · -- the power of two that the greater quotient has reached is a grid point between the two
    have hne : other / den ≠ 0 := by
      intro hzero
      simp [hzero] at hlt
    have hpower : spacing (2 ^ (other / den).log2) ∣ 2 ^ (other / den).log2 := by
      simpa using onGrid_of_bits (m := 1) (by omega) ⟨(other / den).log2, rfl⟩
    have hbelow : num / den < 2 ^ (other / den).log2 := by
      rcases Nat.eq_zero_or_pos (num / den) with hzero | hpos
      · rw [hzero]
        exact Nat.two_pow_pos _
      · exact (Nat.log2_lt hpos.ne').mp hlt
    have habove := Nat.log2_self_le hne
    exact (toGrid_le hden hpower ((Nat.div_lt_iff_lt_mul hden).mp hbelow).le).trans
      (le_toGrid hden hpower ((Nat.le_div_iff_mul_le hden).mp habove))
  · have hspacing : spacing (num / den) = spacing (other / den) := by rw [spacing, heq, spacing]
    rw [toGrid, toGrid, hspacing]
    exact Nat.mul_le_mul_right _ (nearest_mono h)

theorem toGrid_of_dvd (hden : 0 < den) (hg : spacing g ∣ g) : toGrid (g * den) den = g :=
  Nat.le_antisymm (toGrid_le hden hg le_rfl) (le_toGrid hden hg le_rfl)

/-- Above 2⁵² units the grid is fine enough to tell a grid point from what is less by one part in
2⁵³. -/
theorem toGrid_lt (hden : 0 < den) (hg : spacing g ∣ g) (hlarge : 2 ^ 52 < g)
    (h : num * 2 ^ 53 ≤ (2 ^ 53 - 1) * (g * den)) : toGrid num den < g := by
  have hgden : 0 < g * den := Nat.mul_pos (by omega) hden
  have hlt : num / den < g := (Nat.div_lt_iff_lt_mul hden).mpr (by omega)
  obtain ⟨m, hm⟩ := (spacing_dvd_spacing hlt.le).trans hg
  rw [Nat.mul_comm] at hm
  -- at the start of a binade the grid below is twice as fine, and that of the quotient counts
  have hm52 : 2 ^ 52 < m := by
    by_cases hlog : (num / den).log2 ≤ 52
    · have hone : spacing (num / den) = 1 := by simp [spacing, Nat.sub_eq_zero_of_le hlog]
      rw [hone] at hm
      omega
    · have hquotient : num / den ≠ 0 := by
        intro hzero
        simp [hzero] at hlog
      have hstart : 2 ^ 52 * spacing (num / den) ≤ num / den := by
        rw [spacing, Nat.pow_eq, ← Nat.pow_add, show 52 + ((num / den).log2 - 52) = (num / den).log2
          by omega]
        exact Nat.log2_self_le hquotient
      have hscaled : 2 ^ 52 * spacing (num / den) < m * spacing (num / den) := by
        rw [← hm]
        exact hstart.trans_lt hlt
      exact Nat.lt_of_mul_lt_mul_right hscaled
  have hstep : 2 ^ 52 * (den * spacing (num / den)) < g * den := by
    rw [hm, ← toGrid_steps]
    exact Nat.mul_lt_mul_of_pos_right hm52 (Nat.mul_pos hden (spacing_pos _))
  rw [hm]
  refine Nat.mul_lt_mul_of_pos_right (nearest_lt ?_) (spacing_pos _)
  rw [toGrid_steps, ← hm]
  omega

/-- Up to 2⁵² units one part in 2⁵³ is half a step at most, and is rounded away. -/
theorem le_toGrid_of_small (hden : 0 < den) (hsmall : g ≤ 2 ^ 52)
    (h : (2 ^ 53 - 1) * (g * den) ≤ num * 2 ^ 53) : g ≤ toGrid num den := by
  have hscaled : g * den ≤ 2 ^ 52 * den := Nat.mul_le_mul_right den hsmall
  by_cases hover : g * den ≤ num
  · refine le_toGrid hden ?_ hover
    simpa using onGrid_of_bits (m := g) (p := 1) (by omega) ⟨0, rfl⟩
  · have hlt : num / den < g := (Nat.div_lt_iff_lt_mul hden).mpr (Nat.lt_of_not_le hover)
    have hone : spacing (num / den) = 1 := by
      have hlog : (num / den).log2 < 53 := by
        rcases Nat.eq_zero_or_pos (num / den) with hzero | hpos
        · simp [hzero]
        · exact (Nat.log2_lt hpos.ne').mpr (by omega)
      simp [spacing, Nat.sub_eq_zero_of_le (Nat.le_of_lt_succ hlog)]
    rw [toGrid, hone, Nat.mul_one, Nat.mul_one]
    refine le_nearest_of_close hden ?_
    rcases Nat.lt_or_eq_of_le hsmall with hstrict | hedge
    · have := Nat.mul_lt_mul_of_pos_right hstrict hden
      exact Or.inl (by omega)
    · rcases Nat.lt_or_eq_of_le (show 2 * (g * den) ≤ 2 * num + den by omega) with hless | hequal
      · exact Or.inl hless
      · exact Or.inr ⟨hequal, by omega⟩

end Grid

end Storyline.Number

import Mathlib.Data.Nat.Log
import Storyline.Proofs.Digits
import Storyline.Proofs.ShortestDecimals

/-! # No better decimal than that of the search

It is enough to look at the two neighbours of the number: whatever reads back and does not lie
between the two has one of them between itself and the number, and that neighbour reads back as
well and is nearer. A decimal of few digits that reads back is on a coarse grid, or so far off that
a power of ten lies between.
-/
namespace Storyline.Number

section Interval

variable {units exact step : ℕ} {s : ℚ}

/-- The number of steps, a whole one or not, is rounded to the number of units. -/
def ReadsSteps (units : ℕ) (s : ℚ) : Prop := RoundsTo (s / decimalScale) units

theorem readsSteps_iff {n : ℕ} : ReadsSteps units n ↔ readsBack units n := by
  rw [ReadsSteps, roundsTo_quotient_iff decimalScale_pos, readsBack, beq_iff_eq]

theorem ReadsSteps.between {a b c : ℚ} (ha : ReadsSteps units a) (hc : ReadsSteps units c)
    (hb : 0 ≤ b) (hab : a ≤ b) (hbc : b ≤ c) : ReadsSteps units b := by
  have hscale : (0 : ℚ) ≤ decimalScale := Nat.cast_nonneg _
  exact RoundsTo.between ha hc (div_nonneg hb hscale) (div_le_div_of_nonneg_right hab hscale)
    (div_le_div_of_nonneg_right hbc hscale)

/-- The number of steps is not between the two neighbours. -/
def Outside (exact step : ℕ) (s : ℚ) : Prop :=
  s ≤ (exact / step * step : ℕ) ∨ ((exact / step + 1) * step : ℕ) ≤ s

theorem lt_above (hstep : 0 < step) : exact < (exact / step + 1) * step := by
  rw [Nat.mul_comm]
  exact Nat.lt_mul_div_succ exact hstep

theorem outside_multiple (m : ℕ) : Outside exact step (m * step : ℕ) := by
  rcases Nat.lt_or_ge (exact / step) m with hlt | hge
  · exact Or.inr (Nat.cast_le.mpr (Nat.mul_le_mul_right step hlt))
  · exact Or.inl (Nat.cast_le.mpr (Nat.mul_le_mul_right step hge))

theorem Outside.lower {t : ℕ} (ht : Outside exact step t) (hstep : 0 < step) (hle : t ≤ exact)
    (hs : s ≤ t) : Outside exact step s := by
  rcases ht with hbelow | habove
  · exact Or.inl (hs.trans hbelow)
  · have hcross := (Nat.cast_le.mp habove).trans hle
    exact absurd (lt_above hstep) hcross.not_gt

theorem Outside.upper {t : ℕ} (ht : Outside exact step t) (hlt : exact < t) (hs : (t : ℚ) ≤ s) :
    Outside exact step s := by
  rcases ht with hbelow | habove
  · have hcross := (Nat.cast_le.mp hbelow).trans (Nat.div_mul_le_self exact step)
    exact absurd hlt hcross.not_gt
  · exact Or.inr (habove.trans hs)

/-- Whatever reads back from outside leaves a neighbour between itself and the number. -/
theorem Outside.neighbour (hout : Outside exact step s) (hstep : 0 < step)
    (hexact : readsBack units exact) (hs : ReadsSteps units s) :
    ∃ other, (other = exact / step ∨ other = exact / step + 1) ∧
      readsBack units (other * step) ∧
      |((other * step : ℕ) : ℚ) - exact| ≤ |s - exact| := by
  rw [← readsSteps_iff] at hexact
  rcases hout with hbelow | habove
  · have hnext : ((exact / step * step : ℕ) : ℚ) ≤ exact :=
      Nat.cast_le.mpr (Nat.div_mul_le_self exact step)
    refine ⟨_, Or.inl rfl, ?_, ?_⟩
    · exact readsSteps_iff.mp (hs.between hexact (Nat.cast_nonneg _) hbelow hnext)
    · exact abs_le_abs_of_nonpos (sub_nonpos.mpr hnext) (sub_le_sub_right hbelow _)
  · have hnext : (exact : ℚ) ≤ ((exact / step + 1) * step : ℕ) :=
      Nat.cast_le.mpr (lt_above hstep).le
    refine ⟨_, Or.inr rfl, ?_, ?_⟩
    · exact readsSteps_iff.mp (hexact.between hs (Nat.cast_nonneg _) hnext habove)
    · exact abs_le_abs_of_nonneg (sub_nonneg.mpr hnext) (sub_le_sub_right habove _)

end Interval

section Decade

variable {units exact digits places top number leading zeros count : ℕ} {p : ℤ} {s : ℚ}

structure Decade (exact top : ℕ) : Prop where
  lower : 10 ^ top ≤ exact
  upper : exact < 10 ^ (top + 1)

theorem exists_decade (hexact : exact ≠ 0) : ∃ top, Decade exact top :=
  ⟨Nat.log 10 exact, Nat.pow_log_le_self 10 hexact,
    Nat.lt_pow_succ_log_self (by decide) exact⟩

theorem outside_or_decade (htop : Decade exact top) (hplaces : places ≤ top) (s : ℚ) :
    Outside exact (10 ^ places) s ∨ ((10 ^ top : ℕ) : ℚ) ≤ s ∧ s < (10 ^ (top + 1) : ℕ) := by
  have hpower : ∀ k, places ≤ k → Outside exact (10 ^ places) (10 ^ k : ℕ) := by
    intro k hk
    rw [← Nat.sub_add_cancel hk, Nat.pow_add]
    exact outside_multiple _
  by_cases hlow : s < (10 ^ top : ℕ)
  · exact Or.inl ((hpower top hplaces).lower (Nat.pow_pos (by decide)) htop.lower hlow.le)
  by_cases hhigh : ((10 ^ (top + 1) : ℕ) : ℚ) ≤ s
  · exact Or.inl ((hpower (top + 1) (by omega)).upper htop.upper hhigh)
  · exact Or.inr ⟨not_lt.mp hlow, not_le.mp hhigh⟩

theorem decade_position (hnumber : Leading number leading zeros count)
    (hs : s = leading * (10 : ℚ) ^ p) (hlow : ((10 ^ top : ℕ) : ℚ) ≤ s)
    (hhigh : s < (10 ^ (top + 1) : ℕ)) : (count : ℤ) + p = top + 1 := by
  have hten : (1 : ℚ) < 10 := by norm_num
  have hpower : (0 : ℚ) < 10 ^ p := zpow_pos (by norm_num) p
  have hleast : (10 : ℚ) ^ count ≤ 10 * leading := by exact_mod_cast hnumber.lower
  have hmost : (leading : ℚ) < 10 ^ count := by exact_mod_cast hnumber.upper
  push_cast at hlow hhigh
  have hsplit : (10 : ℚ) ^ ((count : ℤ) + p) = 10 ^ count * 10 ^ p := by
    rw [zpow_add₀ (by norm_num), zpow_natCast]
  have habove : (10 : ℚ) ^ (top : ℤ) < 10 ^ ((count : ℤ) + p) :=
    calc (10 : ℚ) ^ (top : ℤ)
        = 10 ^ top := zpow_natCast _ _
      _ ≤ leading * 10 ^ p := hs ▸ hlow
      _ < 10 ^ count * 10 ^ p := mul_lt_mul_of_pos_right hmost hpower
      _ = 10 ^ ((count : ℤ) + p) := hsplit.symm
  have hbelow : (10 : ℚ) ^ ((count : ℤ) + p) < 10 ^ ((top : ℤ) + 2) :=
    calc (10 : ℚ) ^ ((count : ℤ) + p)
        = 10 ^ count * 10 ^ p := hsplit
      _ ≤ 10 * leading * 10 ^ p := mul_le_mul_of_nonneg_right hleast hpower.le
      _ = 10 * s := by rw [hs, mul_assoc]
      _ < 10 * 10 ^ (top + 1) := mul_lt_mul_of_pos_left hhigh (by norm_num)
      _ = 10 ^ ((top : ℤ) + 2) := by
        rw [← pow_succ', ← zpow_natCast]
        push_cast
        congr 1
  have := (zpow_lt_zpow_iff_right₀ hten).mp habove
  have := (zpow_lt_zpow_iff_right₀ hten).mp hbelow
  omega

namespace Found

theorem places_le (h : Found units exact digits places) (htop : Decade exact top) :
    places ≤ top := by
  have hle : 10 ^ places ≤ exact := by
    by_contra hlt
    exact h.neighbour.given (Nat.div_eq_of_lt (Nat.lt_of_not_le hlt))
  exact Nat.le_of_lt_succ ((Nat.pow_lt_pow_iff_right (by decide)).mp (hle.trans_lt htop.upper))

theorem le_places (h : Found units exact digits places) (hexact : readsBack units exact)
    (hs : ReadsSteps units s) {grid : ℕ} (hgiven : 10 ^ grid ≤ exact)
    (hout : Outside exact (10 ^ grid) s) : grid ≤ places := by
  by_contra hlt
  have hstep : 0 < 10 ^ grid := Nat.pow_pos (by decide)
  obtain ⟨other, hother, hread, -⟩ := hout.neighbour hstep hexact hs
  exact neighbour?_reads (Nat.div_pos hgiven hstep).ne' hother hread
    (h.coarser grid (Nat.lt_of_not_le hlt))

theorem nearer (h : Found units exact digits places) (hexact : readsBack units exact)
    (hs : ReadsSteps units s) (hout : Outside exact (10 ^ places) s) :
    |((digits * 10 ^ places : ℕ) : ℚ) - exact| ≤ |s - exact| := by
  obtain ⟨other, hother, hread, hdistance⟩ := hout.neighbour (Nat.pow_pos (by decide)) hexact hs
  exact (h.neighbour.nearest other hother hread).trans hdistance

theorem fewest (h : Found units exact digits places) (hexact : readsBack units exact)
    (htop : Decade exact top) (hs : ReadsSteps units s)
    (hnumber : Leading number leading zeros count) (hvalue : s = leading * (10 : ℚ) ^ p) :
    top + 1 ≤ places + count := by
  have hcount := hnumber.count_pos
  rcases outside_or_decade htop le_rfl s with hout | ⟨hlow, hhigh⟩
  · have := h.le_places hexact hs htop.lower hout
    omega
  · have hposition := decade_position hnumber hvalue hlow hhigh
    rcases lt_or_ge p 0 with hneg | hnonneg
    · omega
    · obtain ⟨grid, rfl⟩ := Int.eq_ofNat_of_zero_le hnonneg
      have hgrid : 10 ^ grid ≤ 10 ^ top := Nat.pow_le_pow_right (by decide) (by omega)
      have hout : Outside exact (10 ^ grid) s := by
        rw [hvalue, zpow_natCast]
        exact_mod_cast outside_multiple leading
      have := h.le_places hexact hs (hgrid.trans htop.lower) hout
      omega

theorem closest (h : Found units exact digits places) (hexact : readsBack units exact)
    (htop : Decade exact top) (hs : ReadsSteps units s)
    (hnumber : Leading number leading zeros count) (hvalue : s = leading * (10 : ℚ) ^ p)
    (hcount : places + count ≤ top + 1) :
    |((digits * 10 ^ places : ℕ) : ℚ) - exact| ≤ |s - exact| := by
  apply h.nearer hexact hs
  rcases outside_or_decade htop (h.places_le htop) s with hout | ⟨hlow, hhigh⟩
  · exact hout
  · have hposition := decade_position hnumber hvalue hlow hhigh
    obtain ⟨more, rfl⟩ : ∃ more : ℕ, p = ((more + places : ℕ) : ℤ) :=
      ⟨(p - places).toNat, by omega⟩
    rw [hvalue, zpow_natCast, pow_add, ← mul_assoc]
    exact_mod_cast outside_multiple (leading * 10 ^ more)

theorem count_le (h : Found units exact digits places) (htop : Decade exact top)
    (hnumber : Leading number leading zeros count) {moved behind : ℕ}
    (hsame : number * 10 ^ moved = digits * 10 ^ behind) : places + count ≤ top + 1 := by
  have hplaces := h.places_le htop
  obtain ⟨rest, hrest⟩ : ∃ rest, top + 1 = places + (rest + 1) := ⟨top - places, by omega⟩
  have hbelow : exact / 10 ^ places < 10 ^ (rest + 1) := by
    apply Nat.div_lt_of_lt_mul
    rw [← Nat.pow_add, ← hrest]
    exact htop.upper
  have hdigits : digits ≤ 10 ^ (rest + 1) := by
    have := h.neighbour.beside
    omega
  rcases Nat.lt_or_eq_of_le hdigits with hlt | heq
  · have := hnumber.count_le hsame hlt
    omega
  · -- the neighbour above nines is a power of ten, which has one digit
    rw [heq, ← Nat.one_mul (10 ^ (rest + 1)), Nat.mul_assoc, ← Nat.pow_add] at hsame
    have := hnumber.count_le hsame (show 1 < 10 ^ 1 by decide)
    omega

end Found

end Decade

end Storyline.Number

import Storyline.Number.Shortest
import Storyline.Proofs.DecimalReading

/-! # Shortest decimals read back

The search goes from coarse grids of decimals to finer ones and looks at the two neighbours of the
number only. On whatever grid it stops, the decimal that it has found rounds to the number it was
found for. The finest grid is that of the exact number, where the search cannot fail.
-/
namespace Storyline.Number

section Neighbours

variable {units exact step digits places : ℕ}

/-- The better one of the two neighbours on a grid: it reads back, and is the nearer one if both
do. -/
structure Neighbour (units exact step digits : ℕ) : Prop where
  given : exact / step ≠ 0
  beside : digits = exact / step ∨ digits = exact / step + 1
  reads : readsBack units (digits * step)
  nearest : ∀ other, other = exact / step ∨ other = exact / step + 1 →
    readsBack units (other * step) →
    |((digits * step : ℕ) : ℚ) - exact| ≤ |((other * step : ℕ) : ℚ) - exact|

theorem Neighbour.ne_zero (h : Neighbour units exact step digits) : digits ≠ 0 := by
  rcases h.beside with heq | heq
  · exact heq ▸ h.given
  · exact heq ▸ Nat.succ_ne_zero _

theorem nearer_iff {g h n : ℕ} :
    |(g : ℚ) - n| ≤ |(h : ℚ) - n| ↔ (g < h → 2 * n ≤ g + h) ∧ (h < g → g + h ≤ 2 * n) := by
  rw [abs_sub_le_iff_middle]
  norm_cast

theorem neighbour_of_some (hstep : 0 < step) (h : neighbour? units exact step = some digits) :
    Neighbour units exact step digits := by
  have hsplit := Nat.div_add_mod exact step
  have hmod := Nat.mod_lt exact hstep
  have habove : (exact / step + 1) * step = exact / step * step + step := Nat.succ_mul _ _
  rw [Nat.mul_comm] at hsplit
  unfold neighbour? at h
  dsimp only at h
  split at h
  · cases h
  · next hgiven =>
    split at h
    · next hlower hupper =>
      -- both read back, and the half tells which is nearer
      split at h <;> cases h
      · refine ⟨hgiven, Or.inl rfl, hlower, ?_⟩
        rintro other (rfl | rfl) - <;> rw [nearer_iff] <;> omega
      · refine ⟨hgiven, Or.inr rfl, hupper, ?_⟩
        rintro other (rfl | rfl) - <;> rw [nearer_iff] <;> omega
    · next hlower hupper =>
      cases h
      refine ⟨hgiven, Or.inl rfl, hlower, ?_⟩
      rintro other (rfl | rfl) hread
      · exact le_rfl
      · rw [hupper] at hread
        cases hread
    · next hlower hupper =>
      cases h
      refine ⟨hgiven, Or.inr rfl, hupper, ?_⟩
      rintro other (rfl | rfl) hread
      · rw [hlower] at hread
        cases hread
      · exact le_rfl
    · cases h

theorem neighbour?_reads {other : ℕ} (hgiven : exact / step ≠ 0)
    (hother : other = exact / step ∨ other = exact / step + 1)
    (hread : readsBack units (other * step)) : neighbour? units exact step ≠ none := by
  intro hnone
  unfold neighbour? at hnone
  dsimp only at hnone
  rw [if_neg hgiven] at hnone
  split at hnone
  · cases hnone
  · cases hnone
  · cases hnone
  · next hbelow habove =>
    rcases hother with rfl | rfl
    · rw [hbelow] at hread
      cases hread
    · rw [habove] at hread
      cases hread

theorem neighbour?_one (hexact : readsBack units exact) (hpos : exact ≠ 0) :
    neighbour? units exact 1 = some exact := by
  unfold neighbour?
  simp only [Nat.div_one, Nat.mul_one, hexact, hpos, if_false]
  cases readsBack units (exact + 1)
  · rfl
  · simp [Nat.mod_one]

end Neighbours

section Search

variable {units exact digits places : ℕ}

theorem two_pow_le_coarsest (n : ℕ) : 2 ^ n.log2 ≤ 10 ^ coarsest n := by
  have hpower : 2 ^ 93 ≤ 10 ^ 28 := by decide
  have hplaces : 28 * n.log2 ≤ 93 * coarsest n := by
    unfold coarsest
    omega
  rw [← Nat.pow_le_pow_iff_left (show 93 ≠ 0 by decide)]
  calc (2 ^ n.log2) ^ 93
      = (2 ^ 93) ^ n.log2 := by rw [← Nat.pow_mul, ← Nat.pow_mul, Nat.mul_comm]
    _ ≤ (10 ^ 28) ^ n.log2 := Nat.pow_le_pow_left hpower _
    _ = 10 ^ (28 * n.log2) := (Nat.pow_mul 10 28 _).symm
    _ ≤ 10 ^ (93 * coarsest n) := Nat.pow_le_pow_right (by decide) hplaces
    _ = (10 ^ coarsest n) ^ 93 := by rw [← Nat.pow_mul, Nat.mul_comm]

theorem neighbour?_beyond (h : coarsest exact < places) :
    neighbour? units exact (10 ^ places) = none := by
  have hlarge : exact < 10 ^ places :=
    calc exact
        < 2 ^ (exact.log2 + 1) := Nat.lt_log2_self
      _ = 2 * 2 ^ exact.log2 := Nat.pow_succ'
      _ ≤ 10 * 10 ^ coarsest exact := Nat.mul_le_mul (by decide) (two_pow_le_coarsest exact)
      _ = 10 ^ (coarsest exact + 1) := Nat.pow_succ'.symm
      _ ≤ 10 ^ places := Nat.pow_le_pow_right (by decide) h
  exact if_pos (Nat.div_eq_of_lt hlarge)

/-- Where the search stops: at the better neighbour of a grid, when no coarser grid had one. -/
structure Found (units exact digits places : ℕ) : Prop where
  neighbour : Neighbour units exact (10 ^ places) digits
  coarser : ∀ p, places < p → neighbour? units exact (10 ^ p) = none

theorem shortestFrom_found (hexact : readsBack units exact) (hpos : exact ≠ 0) {start : ℕ}
    (hstart : ∀ p, start < p → neighbour? units exact (10 ^ p) = none) :
    Found units exact (shortestFrom units exact start).1 (shortestFrom units exact start).2 := by
  induction start with
  | zero => exact ⟨neighbour_of_some Nat.one_pos (neighbour?_one hexact hpos), hstart⟩
  | succ start ih =>
    rw [shortestFrom]
    split
    · next digits hsome =>
      exact ⟨neighbour_of_some (Nat.pow_pos (by decide)) hsome, hstart⟩
    · next hnone =>
      apply ih
      intro p hp
      rcases Nat.lt_or_eq_of_le (Nat.succ_le_of_lt hp) with hlt | rfl
      · exact hstart p hlt
      · exact hnone

theorem decimalScale_pos : 0 < decimalScale := by decide +kernel

theorem readsBack_exact (hg : spacing units ∣ units) : readsBack units (units * decimalScale) :=
  beq_iff_eq.mpr (toGrid_of_dvd decimalScale_pos hg)

theorem dropZero_steps (digits places : Nat) : ∃ moved : Nat,
    (dropZero (digits, places)).2 = (moved : Int) - 1074 ∧
      (dropZero (digits, places)).1 * 10 ^ moved = digits * 10 ^ places := by
  rw [dropZero]
  split
  · next hround =>
    refine ⟨places + 1, by omega, ?_⟩
    rw [Nat.pow_succ', ← Nat.mul_assoc, Nat.div_mul_cancel (Nat.dvd_of_mod_eq_zero hround)]
  · exact ⟨places, rfl, rfl⟩

theorem shortest_found (hg : spacing units ∣ units) (hunits : units ≠ 0) :
    ∃ digits grid moved : ℕ, Found units (units * decimalScale) digits grid ∧
      (shortest units).2 = (moved : Int) - 1074 ∧
      (shortest units).1 * 10 ^ moved = digits * 10 ^ grid := by
  have hpos : units * decimalScale ≠ 0 := Nat.mul_ne_zero hunits decimalScale_pos.ne'
  have hfound := shortestFrom_found (readsBack_exact hg) hpos fun p hp => neighbour?_beyond hp
  rw [shortest]
  generalize shortestFrom units (units * decimalScale) (coarsest (units * decimalScale)) = found
    at hfound ⊢
  obtain ⟨digits, grid⟩ := found
  obtain ⟨moved, hexponent, hsteps⟩ := dropZero_steps digits grid
  exact ⟨digits, grid, moved, hfound, hexponent, hsteps⟩

end Search

section Reading

variable {coefficient places : Nat}

theorem pow_mul_pow_sub (h : places ≤ 1074) :
    10 ^ places * 10 ^ (1074 - places) = decimalScale * unitsPerOne := by
  unfold decimalScale unitsPerOne
  -- the powers of 1074 places are too long to be written out
  generalize 1074 = k at h ⊢
  rw [← Nat.pow_add, Nat.add_sub_cancel' h]
  exact Nat.mul_pow 5 2 k

theorem toGrid_decimal (h : places ≤ 1074) :
    toGrid (coefficient * unitsPerOne) (10 ^ places) =
      toGrid (coefficient * 10 ^ (1074 - places)) decimalScale := by
  have hpower : 0 < 10 ^ (1074 - places) := Nat.pow_pos (by decide)
  rw [← toGrid_mul_right hpower, pow_mul_pow_sub h, Nat.mul_right_comm,
    toGrid_mul_right unitsPerOne_pos]

end Reading

namespace Binary64

variable {negative : Bool} {size : Magnitude}

theorem round_eq_finite {num den : Nat} (h : toGrid num den = size.units) :
    round negative num den = .finite negative size := by
  obtain ⟨units, hbounded, hgrid⟩ := size
  dsimp only at h
  subst h
  exact dif_pos hbounded

/-- The double is read from every decimal, of no more places than the steps have, that rounds to
it. -/
theorem ofDecimal_of_readsBack {coefficient places : Nat} (hplaces : places ≤ 1074)
    (h : readsBack size.units (coefficient * 10 ^ (1074 - places))) :
    ofDecimal negative coefficient (-places) = .finite negative size := by
  have hwhole : (-(places : Int)).toNat = 0 := by omega
  have hnegated : (-(-(places : Int))).toNat = places := by omega
  rw [ofDecimal_eq_round, hwhole, hnegated, Nat.pow_zero, Nat.mul_one]
  exact round_eq_finite ((toGrid_decimal hplaces).trans (beq_iff_eq.mp h))

end Binary64
end Storyline.Number

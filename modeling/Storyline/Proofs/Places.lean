import Storyline.Number.Binary64
import Storyline.Proofs.GridRounding

/-! # Doubles that are not negative

On the number line a double that is not negative, the negative zero among them, is a natural number
of units; the infinite one stands at the limit. Sums and products are then sums and products of
natural numbers, rounded to the grid and cut at the limit.
-/
namespace Storyline.Number

theorem unitLimit_pos : 0 < unitLimit := by decide +kernel

theorem unitsPerOne_pos : 0 < unitsPerOne := by decide +kernel

theorem unitLimit_onGrid : spacing unitLimit ∣ unitLimit := by decide +kernel

theorem toGrid_zero (den : Nat) : toGrid 0 den = 0 := by
  have hnearest : nearest 0 (den * spacing (0 / den)) = 0 := by
    unfold nearest
    split
    · exact Nat.zero_div _
    · next h => simp at h; omega
  rw [toGrid, hnearest, Nat.zero_mul]

namespace Binary64

/-- The double stands at `n` units. -/
def At (x : Binary64) (n : Nat) : Prop := x.place = some (n : Int)

variable {x y : Binary64} {a b : Nat}

theorem finite_at_iff {s : Bool} {size : Magnitude} :
    (finite s size).At a ↔ size.units = a ∧ (s = true → a = 0) := by
  cases s with
  | false => simp [At, place]
  | true =>
    simp only [At, place, if_true, Option.some.injEq, forall_const]
    omega

theorem infinite_at_iff {s : Bool} : (infinite s).At a ↔ s = false ∧ a = unitLimit := by
  have hpos := unitLimit_pos
  cases s with
  | false =>
    simp only [At, place, Bool.false_eq_true, if_false, Option.some.injEq, true_and]
    omega
  | true =>
    simp only [At, place, if_true, Option.some.injEq, Bool.true_eq_false, false_and, iff_false]
    omega

theorem At.cases (h : x.At a) :
    (∃ s size, x = .finite s size ∧ size.units = a ∧ (s = true → a = 0)) ∨
      (x = .infinite false ∧ a = unitLimit) := by
  cases x with
  | nan => simp [At, place] at h
  | infinite s =>
    obtain ⟨hs, ha⟩ := infinite_at_iff.mp h
    exact Or.inr ⟨by rw [hs], ha⟩
  | finite s size => exact Or.inl ⟨s, size, rfl, finite_at_iff.mp h⟩

theorem At.onGrid (h : x.At a) : spacing a ∣ a := by
  rcases h.cases with ⟨s, size, _, hunits, _⟩ | ⟨_, ha⟩
  · exact hunits ▸ size.onGrid
  · exact ha ▸ unitLimit_onGrid

theorem At.le_limit (h : x.At a) : a ≤ unitLimit := by
  rcases h.cases with ⟨s, size, _, hunits, _⟩ | ⟨_, ha⟩
  · exact hunits ▸ size.bounded.le
  · exact ha.le

theorem At.finite (h : x.At a) (ha : a < unitLimit) :
    ∃ s size, x = .finite s size ∧ size.units = a ∧ (s = true → a = 0) := by
  rcases h.cases with hfinite | ⟨_, hlimit⟩
  · exact hfinite
  · exact absurd hlimit ha.ne

theorem At.lt_iff (hx : x.At a) (hy : y.At b) : x.lt y = true ↔ a < b := by
  rw [At] at hx hy
  simp [lt, hx, hy]

theorem le_of_lt (h : x.lt y = true) : x.le y = true := by
  unfold lt at h
  unfold le
  cases hx : x.place <;> cases hy : y.place <;> simp_all
  omega

theorem nan_lt : Binary64.nan.lt x = false := rfl

/-- Rounding goes to the grid and does not pass the limit; a sign can stand before zero only. -/
theorem round_at {s : Bool} {num den : Nat} (hs : s = true → num = 0) :
    (round s num den).At (min (toGrid num den) unitLimit) := by
  have hzero : s = true → toGrid num den = 0 := fun h => hs h ▸ toGrid_zero den
  unfold round
  split
  · next h =>
    rw [Nat.min_eq_left h.le]
    exact finite_at_iff.mpr ⟨rfl, hzero⟩
  · next h =>
    rw [Nat.min_eq_right (Nat.le_of_not_lt h)]
    refine infinite_at_iff.mpr ⟨?_, rfl⟩
    by_contra hsign
    exact h (hzero (by simpa using hsign) ▸ unitLimit_pos)

theorem zero_at (s : Bool) : (zero s).At 0 := by
  have h : (round s 0 1).At _ := round_at fun _ => rfl
  rwa [toGrid_zero, Nat.zero_min] at h

theorem at_of_zero_le (hfinite : x.isFinite = true) (hle : (zero false).le x = true) :
    ∃ n, n < unitLimit ∧ x.At n := by
  have hzero : (zero false).place = some ((0 : Nat) : Int) := zero_at false
  rw [le, hzero] at hle
  cases x with
  | nan => cases hfinite
  | infinite s => cases hfinite
  | finite s size =>
    refine ⟨size.units, size.bounded, finite_at_iff.mpr ⟨rfl, ?_⟩⟩
    intro hs
    simpa [place, hs] using hle

theorem add_at (hx : x.At a) (hy : y.At b) :
    (x.add y).At (min (toGrid (a + b) 1) unitLimit) := by
  have hover : unitLimit ≤ a + b → min (toGrid (a + b) 1) unitLimit = unitLimit := fun hn =>
    Nat.min_eq_right (le_toGrid Nat.one_pos unitLimit_onGrid (by omega))
  rcases hx.cases with ⟨s, p, rfl, hp, hs⟩ | ⟨rfl, ha⟩
  · rcases hy.cases with ⟨t, q, rfl, hq, ht⟩ | ⟨rfl, hb⟩
    · -- of two different signs the negative one belongs to a zero
      simp only [add]
      split_ifs with hsign hequal hless
      · rw [hp, hq]
        exact round_at fun h => by rw [hs h, ht (hsign ▸ h)]
      · have hsum : a + b = 0 := by cases s <;> cases t <;> simp_all
        rw [hsum, toGrid_zero, Nat.zero_min]
        exact zero_at false
      · have hdiff : p.units - q.units = a + b := by cases s <;> cases t <;> simp_all
        rw [hdiff]
        exact round_at fun h => by rw [← hdiff, hp, hs h, Nat.zero_sub]
      · have hdiff : q.units - p.units = a + b := by cases s <;> cases t <;> simp_all
        rw [hdiff]
        exact round_at fun h => by rw [← hdiff, hq, ht h, Nat.zero_sub]
    · rw [hover (by omega)]
      exact infinite_at_iff.mpr ⟨rfl, rfl⟩
  · rw [hover (by omega)]
    rcases hy.cases with ⟨t, q, rfl, hq, ht⟩ | ⟨rfl, hb⟩ <;>
      exact infinite_at_iff.mpr ⟨rfl, rfl⟩

theorem mul_at (hx : x.At a) (ha : a < unitLimit) (hy : y.At b) (hb : b < unitLimit) :
    (x.mul y).At (min (toGrid (a * b) unitsPerOne) unitLimit) := by
  obtain ⟨s, p, rfl, hp, hs⟩ := hx.finite ha
  obtain ⟨t, q, rfl, hq, ht⟩ := hy.finite hb
  rw [mul, hp, hq]
  refine round_at fun hsign => ?_
  cases s with
  | true => rw [hs rfl, Nat.zero_mul]
  | false => rw [ht (by simpa using hsign), Nat.mul_zero]

theorem add_zero_at (hx : x.At a) (hy : y.At 0) : (x.add y).At a := by
  have hexact : toGrid a 1 = a := by simpa using toGrid_of_dvd Nat.one_pos hx.onGrid
  have h := add_at hx hy
  rwa [Nat.add_zero, hexact, Nat.min_eq_left hx.le_limit] at h

theorem add_at_ge (hx : x.At a) (hy : y.At b) : ∃ c, a ≤ c ∧ (x.add y).At c := by
  have hge : a ≤ toGrid (a + b) 1 := le_toGrid Nat.one_pos hx.onGrid (by omega)
  exact ⟨_, Nat.le_min.mpr ⟨hge, hx.le_limit⟩, add_at hx hy⟩

theorem mul_at_limit (hx : x.At a) (ha : a < unitLimit) (hy : y.At unitLimit) :
    x.mul y = .nan ∨ (x.mul y).At unitLimit := by
  obtain ⟨s, p, rfl, hp, hs⟩ := hx.finite ha
  rcases hy.cases with ⟨t, q, rfl, hq, _⟩ | ⟨rfl, _⟩
  · exact absurd hq q.bounded.ne
  · simp only [mul, hp]
    split
    · exact Or.inl rfl
    · next hzero =>
      refine Or.inr (infinite_at_iff.mpr ⟨?_, rfl⟩)
      cases s with
      | false => rfl
      | true => exact absurd (hs rfl) hzero

theorem mul_nan_or_at (hx : x.At a) (ha : a < unitLimit) (hy : y.At b) :
    x.mul y = .nan ∨ ∃ n, (x.mul y).At n := by
  rcases Nat.lt_or_eq_of_le hy.le_limit with hb | hb
  · exact Or.inr ⟨_, mul_at hx ha hy hb⟩
  · exact (mul_at_limit hx ha (hb ▸ hy)).imp_right fun h => ⟨_, h⟩

end Binary64
end Storyline.Number

import Mathlib.Tactic.Ring
import Storyline.Number.Binary64
import Storyline.Proofs.GridRounding

/-! # Bit patterns

A pattern of 64 bits is a sign, an exponent of 11 bits and a fraction of 52. The exponent 0 counts
single units; from 1 on the step doubles with each exponent and 2⁵² is added to the fraction; the
last exponent is left to the infinities and to NaN. Apart from those of NaN every pattern is the
pattern of the double that it stands for.
-/
namespace Storyline.Number

theorem pow_le_unitLimit {k : Nat} (h : k ≤ 2098) : 2 ^ k ≤ unitLimit := by
  unfold unitLimit
  generalize 2098 = l at h ⊢
  exact Nat.pow_le_pow_right (by decide) h

/-- The number `n` is `m` steps of `2 ^ k` units. Its significand `m` has 53 bits, or fewer if the
steps are single units. -/
structure Significand (n m k : Nat) : Prop where
  units_eq : n = m * 2 ^ k
  below : m < 2 ^ 53
  normal : k = 0 ∨ 2 ^ 52 ≤ m

namespace Significand

variable {n m k : Nat}

theorem div_eq (h : Significand n m k) : n / 2 ^ k = m := by
  rw [h.units_eq, Nat.mul_div_cancel m (Nat.two_pow_pos k)]

theorem log2_eq (h : Significand n m k) : n.log2 - 52 = k := by
  have hupper : n < 2 ^ (53 + k) := by
    rw [h.units_eq, Nat.pow_add]
    exact Nat.mul_lt_mul_of_pos_right h.below (Nat.two_pow_pos k)
  rcases Nat.eq_zero_or_pos n with hzero | hpos
  · rcases h.normal with hk | hm
    · simp [hzero, hk]
    · have := Nat.mul_pos (Nat.lt_of_lt_of_le (Nat.two_pow_pos 52) hm) (Nat.two_pow_pos k)
      rw [← h.units_eq] at this
      omega
  · have hlog := (Nat.log2_lt hpos.ne').mpr hupper
    rcases h.normal with hk | hm
    · omega
    · have hlower : 2 ^ (52 + k) ≤ n := by
        rw [h.units_eq, Nat.pow_add]
        exact Nat.mul_le_mul_right _ hm
      have := (Nat.le_log2 hpos.ne').mpr hlower
      omega

end Significand

def Magnitude.ofSteps (m k : Nat) (hm : m < 2 ^ 53) (hk : k ≤ 2045) : Magnitude where
  units := m * 2 ^ k
  bounded :=
    calc m * 2 ^ k
        < 2 ^ 53 * 2 ^ k := Nat.mul_lt_mul_of_pos_right hm (Nat.two_pow_pos k)
      _ = 2 ^ (53 + k) := (Nat.pow_add ..).symm
      _ ≤ unitLimit := pow_le_unitLimit (by omega)
  onGrid := onGrid_of_bits hm.le ⟨k, rfl⟩

namespace Binary64

def signOf (w : UInt64) : Bool := 2 ^ 63 ≤ w.toNat

def exponentOf (w : UInt64) : Nat := w.toNat / 2 ^ 52 % 2 ^ 11

def fractionOf (w : UInt64) : Nat := w.toNat % 2 ^ 52

def significandOf (w : UInt64) : Nat :=
  if exponentOf w = 0 then fractionOf w else 2 ^ 52 + fractionOf w

theorem significandOf_lt (w : UInt64) : significandOf w < 2 ^ 53 := by
  unfold significandOf fractionOf
  split <;> omega

def ofBits (w : UInt64) : Binary64 :=
  if h : exponentOf w ≤ 2046 then
    .finite (signOf w)
      (.ofSteps (significandOf w) (exponentOf w - 1) (significandOf_lt w) (by omega))
  else if fractionOf w = 0 then .infinite (signOf w)
  else .nan

theorem pattern_eq (w : UInt64) :
    bits?.sign (signOf w) + exponentOf w * 2 ^ 52 + fractionOf w = w.toNat := by
  have := w.toNat_lt
  unfold signOf exponentOf fractionOf bits?.sign
  simp only [decide_eq_true_eq, Nat.pow_eq]
  split <;> omega

theorem exponentOf_lt (w : UInt64) : exponentOf w < 2 ^ 11 := Nat.mod_lt _ (by decide)

theorem ofBits_eq_nan_iff {w : UInt64} :
    ofBits w = .nan ↔ exponentOf w = 2047 ∧ fractionOf w ≠ 0 := by
  have hbelow := exponentOf_lt w
  unfold ofBits
  split
  · simp
    omega
  · split
    · simp_all
    · simp_all
      omega

theorem bits?_finite {negative : Bool} {size : Magnitude} {m k : Nat}
    (h : Significand size.units m k) : (Binary64.finite negative size).bits? =
      some (UInt64.ofNat (bits?.sign negative + k * 2 ^ 52 + m)) := by
  simp only [bits?, h.log2_eq, Nat.pow_eq, h.div_eq]

theorem bits?_infinite (negative : Bool) : (Binary64.infinite negative).bits? =
    some (UInt64.ofNat (bits?.sign negative + 2047 * 2 ^ 52)) := rfl

theorem pattern_significand (w : UInt64) :
    exponentOf w - 1 = 0 ∨ 2 ^ 52 ≤ significandOf w := by
  unfold significandOf
  split <;> omega

theorem pattern_sum (w : UInt64) :
    bits?.sign (signOf w) + (exponentOf w - 1) * 2 ^ 52 + significandOf w = w.toNat := by
  have hpattern := pattern_eq w
  unfold significandOf
  cases h : exponentOf w with
  | zero => simpa [h] using hpattern
  | succ e =>
    rw [← hpattern, h, Nat.add_sub_cancel, if_neg e.succ_ne_zero]
    ring

/-- A pattern that is not one of NaN is the pattern of its double. -/
theorem bits?_ofBits {w : UInt64} (h : ofBits w ≠ .nan) : (ofBits w).bits? = some w := by
  unfold ofBits at h ⊢
  split
  · rw [bits?_finite ⟨rfl, significandOf_lt w, pattern_significand w⟩, pattern_sum,
      UInt64.ofNat_toNat]
  · next hexponent =>
    rw [dif_neg hexponent] at h
    split
    · next hfraction =>
      have hlast : exponentOf w = 2047 := by
        have := exponentOf_lt w
        omega
      have hpattern := pattern_eq w
      rw [hlast, hfraction, Nat.add_zero] at hpattern
      rw [bits?_infinite, hpattern, UInt64.ofNat_toNat]
    · next hfraction => exact absurd (if_neg hfraction) h

example : ofBits 0x3FF0000000000000 = ofNat 1 := by decide +kernel

end Binary64
end Storyline.Number

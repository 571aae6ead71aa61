import Storyline.Proofs.DecimalSearch
import Storyline.Proofs.NumeralRoundTrip

/-! # No shorter text of a double

What a double is written as has as few significant digits as any numeral that is read as the same
double, and none with as few is nearer to the exact value.
-/
namespace Storyline.Number

/-- The steps of 10⁻¹⁰⁷⁴ in 1. -/
def stepsPerOne : ℕ := decimalScale * unitsPerOne

/-- The exact value of a finite double without its sign. -/
def Magnitude.value (size : Magnitude) : ℚ := size.units / unitsPerOne

/-- The significant digits of a decimal: the zeros at both ends do not count. -/
def significantCount (whole fraction : List Char) : ℕ := (significant (whole ++ fraction)).length

section Steps

variable {units : ℕ} {q : ℚ}

theorem stepsPerOne_pos : (0 : ℚ) < stepsPerOne :=
  Nat.cast_pos.mpr (Nat.mul_pos decimalScale_pos unitsPerOne_pos)

theorem stepsPerOne_eq : (stepsPerOne : ℚ) = 10 ^ (1074 : ℤ) := by
  have hpower : stepsPerOne = 10 ^ 1074 := by
    rw [stepsPerOne, ← pow_mul_pow_sub (Nat.zero_le 1074), Nat.pow_zero, Nat.one_mul]
  have hcast : ∀ k : ℕ, ((10 ^ k : ℕ) : ℚ) = 10 ^ (k : ℤ) := by
    intro k
    push_cast
    rw [zpow_natCast]
  rw [hpower, hcast, Nat.cast_ofNat]

theorem Magnitude.value_steps (size : Magnitude) :
    size.value * stepsPerOne = (size.units * decimalScale : ℕ) := by
  have hunits : (unitsPerOne : ℚ) ≠ 0 := Nat.cast_ne_zero.mpr unitsPerOne_pos.ne'
  rw [value, stepsPerOne, Nat.cast_mul, Nat.cast_mul, div_mul_eq_mul_div, ← mul_assoc,
    mul_div_cancel_right₀ _ hunits]

theorem readsSteps_of_roundsTo (h : RoundsTo (q * unitsPerOne) units) :
    ReadsSteps units (q * stepsPerOne) := by
  have hscale : (decimalScale : ℚ) ≠ 0 := Nat.cast_ne_zero.mpr decimalScale_pos.ne'
  have hsteps : q * stepsPerOne / decimalScale = q * unitsPerOne := by
    rw [stepsPerOne, Nat.cast_mul, mul_left_comm, mul_div_cancel_left₀ _ hscale]
  rwa [ReadsSteps, hsteps]

theorem size_steps (whole fraction : List Char) (exponent : ℤ) :
    Numeral.size whole fraction exponent * stepsPerOne =
      ofDigits (whole ++ fraction) * (10 : ℚ) ^ (exponent - fraction.length + 1074) := by
  rw [Numeral.size_eq, stepsPerOne_eq, mul_assoc, ← zpow_add₀ (by norm_num)]

theorem leading_steps {whole fraction : List Char} {leading zeros count : ℕ}
    (h : Leading (ofDigits (whole ++ fraction)) leading zeros count) (exponent : ℤ) :
    Numeral.size whole fraction exponent * stepsPerOne =
      leading * (10 : ℚ) ^ (zeros + (exponent - fraction.length + 1074)) := by
  rw [size_steps, h.number_eq, zpow_add₀ (by norm_num) (zeros : ℤ), zpow_natCast]
  push_cast
  rw [mul_assoc]

theorem distance_le_iff {a b c : ℚ} :
    |a * stepsPerOne - c * stepsPerOne| ≤ |b * stepsPerOne - c * stepsPerOne| ↔
      |a - c| ≤ |b - c| := by
  rw [← sub_mul, ← sub_mul, abs_mul, abs_mul,
    mul_le_mul_iff_left₀ (abs_pos.mpr stepsPerOne_pos.ne')]

end Steps

section Writing

variable {whole fraction text : List Char} {number places digits grid : ℕ}

/-- The text is this numeral and no other. -/
theorem written_signed_iff (h : DecimalText whole fraction 0 text) (negative : Bool) {n : Numeral} :
    n.Written (Binary64.write.signed negative text) ↔ n = .decimal negative whole fraction 0 := by
  have hwritten : (Numeral.decimal negative whole fraction 0).Written
      (Binary64.write.signed negative text) := by
    cases negative with
    | false => exact .intro .none (.decimal h)
    | true => exact .intro .minus (.decimal h)
  constructor
  · intro hn
    exact hn.unique hwritten
  · rintro rfl
    exact hwritten

theorem Pointed.steps (h : Pointed whole fraction text number places) (hplaces : places ≤ 1074)
    (hsame : number * 10 ^ (1074 - places) = digits * 10 ^ grid) :
    Numeral.size whole fraction 0 * stepsPerOne = (digits * 10 ^ grid : ℕ) := by
  have hexponent : (0 : ℤ) - places + 1074 = (1074 - places : ℕ) := by omega
  rw [size_steps, h.number_eq, h.places_eq, hexponent, zpow_natCast, ← hsame]
  push_cast
  rfl

end Writing

section Reading

variable {whole fraction text core : List Char} {exponent : ℤ} {negative minus : Bool}
  {size : Magnitude}

theorem DecimalText.digits (h : DecimalText whole fraction exponent text) :
    ∀ c ∈ whole ++ fraction, c.isDigit := by
  intro c hc
  cases h with
  | integer hgiven hwhole htail => exact hwhole c (by simpa using hc)
  | pointed hgiven hwhole hfraction htail =>
    exact (List.mem_append.mp hc).elim (hwhole c) (hfraction c)

theorem Numeral.Written.digits
    (h : (Numeral.decimal negative whole fraction exponent).Written core) :
    ∀ c ∈ whole ++ fraction, c.isDigit := by
  obtain ⟨_, hunsigned⟩ := h
  cases hunsigned with
  | decimal hdecimal => exact hdecimal.digits

theorem Numeral.Written.roundsTo {text : String} (h : Text.Trimmed text.toList core)
    (hn : (Numeral.decimal minus whole fraction exponent).Written core)
    (hread : Binary64.read text = some (.finite negative size)) :
    RoundsTo (Numeral.size whole fraction exponent * unitsPerOne) size.units := by
  obtain ⟨x, hx, hdenotes⟩ := hn.read h
  rw [hread, Option.some.injEq] at hx
  subst hx
  cases hdenotes with
  | decimal hrounds =>
    cases hrounds with
    | finite hnearest => exact hnearest

theorem ofDigits_ne_zero (hsize : size.units ≠ 0)
    (h : RoundsTo (Numeral.size whole fraction exponent * unitsPerOne) size.units) :
    ofDigits (whole ++ fraction) ≠ 0 := by
  intro hzero
  rw [Numeral.size_eq, hzero, Nat.cast_zero, zero_mul, zero_mul] at h
  have hnone : RoundsTo (((0 : ℕ) : ℚ) / (1 : ℕ)) 0 :=
    (roundsTo_quotient_iff Nat.one_pos).mpr (toGrid_zero 1)
  rw [Nat.cast_zero, zero_div] at hnone
  exact hsize (h.unique hnone)

end Reading

/-- A finite double that is not zero is written as a decimal that is read back as it. A numeral that
is read as the same double, in whatever way it is written and whatever blanks are around it, has as
many significant digits or more, and if it has as many it is no nearer to the exact value. -/
theorem written_decimal_is_minimal (negative : Bool) (size : Magnitude) (hsize : size.units ≠ 0) :
    Binary64.read (Binary64.finite negative size).write = some (.finite negative size) ∧
    ∃ whole fraction,
      (∀ n : Numeral, n.Written (Binary64.finite negative size).write.toList ↔
        n = .decimal negative whole fraction 0) ∧
      ∀ (text : String) core minus other behind exponent, Text.Trimmed text.toList core →
        (Numeral.decimal minus other behind exponent).Written core →
        Binary64.read text = some (.finite negative size) →
        significantCount whole fraction ≤ significantCount other behind ∧
        (significantCount other behind = significantCount whole fraction →
          |Numeral.size whole fraction 0 - size.value| ≤
            |Numeral.size other behind exponent - size.value|) := by
  refine ⟨Binary64.read_write _, ?_⟩
  obtain ⟨whole, fraction, number, places, digits, grid, hpointed, hfound, hplaces, hsame⟩ :=
    writeUnits_found size hsize
  have hexact := readsBack_exact size.onGrid
  have hpos : size.units * decimalScale ≠ 0 := Nat.mul_ne_zero hsize decimalScale_pos.ne'
  obtain ⟨top, htop⟩ := exists_decade hpos
  have hprinted := hpointed.steps hplaces hsame
  rw [← hpointed.number_eq] at hsame
  have hnumber : ofDigits (whole ++ fraction) ≠ 0 := by
    intro hzero
    rw [hzero, Nat.zero_mul, eq_comm] at hsame
    exact Nat.mul_ne_zero hfound.neighbour.ne_zero (Nat.pow_pos (by decide)).ne' hsame
  obtain ⟨_, hleading⟩ := leading_significant hpointed.decimalText.digits hnumber
  have hcount := hfound.count_le htop hleading hsame
  refine ⟨whole, fraction, fun n => ?_, ?_⟩
  · rw [Binary64.write, String.toList_ofList]
    exact written_signed_iff hpointed.decimalText negative
  · intro text core minus other behind exponent htrimmed hwritten hread
    have hrounds := hwritten.roundsTo htrimmed hread
    obtain ⟨more, hother⟩ := leading_significant hwritten.digits (ofDigits_ne_zero hsize hrounds)
    have hsteps := readsSteps_of_roundsTo hrounds
    have hvalue := leading_steps hother exponent
    constructor
    · have := hfound.fewest hexact htop hsteps hother hvalue
      unfold significantCount
      omega
    · intro hequal
      unfold significantCount at hequal
      rw [← distance_le_iff, hprinted, size.value_steps]
      exact hfound.closest hexact htop hsteps hother hvalue (by omega)

def least : Magnitude := ⟨1, by decide +kernel, by decide +kernel⟩

/-- The digits of the least double behind the point. -/
def leastFraction : List Char := List.replicate 323 '0' ++ ['5']

theorem least_write :
    (Binary64.finite false least).write = String.ofList ('0' :: '.' :: leastFraction) := by
  decide +kernel

theorem least_written :
    (Numeral.decimal false ['0'] leastFraction 0).Written
      (Binary64.finite false least).write.toList := by
  have hdigits : ∀ c ∈ ['5'], c.isDigit := by simp
  have houtside : ['5'].length ≤ 324 := by decide
  have hpointed : Pointed ['0'] leastFraction ('0' :: '.' :: leastFraction) 5 324 :=
    pointed_outside hdigits (List.cons_ne_nil '5' []) houtside
  rw [least_write, String.toList_ofList]
  exact (written_signed_iff hpointed.decimalText false).mpr rfl

/-- The least double is written with a single digit. It is also read from another digit at the same
place, which is no nearer to its exact value. -/
theorem least_is_minimal :
    least.units ≠ 0 ∧
      (Binary64.finite false least).write = String.ofList ('0' :: '.' :: leastFraction) ∧
      Binary64.read (Binary64.finite false least).write = some (.finite false least) ∧
      significantCount ['0'] leastFraction = 1 ∧ significantCount ['3'] [] = 1 ∧
      Binary64.read "3e-324" = some (.finite false least) ∧
      |Numeral.size ['0'] leastFraction 0 - least.value| ≤
        |Numeral.size ['3'] [] (-324) - least.value| := by
  have hread : Binary64.read "3e-324" = some (.finite false least) := by decide +kernel
  have htrimmed : Text.Trimmed "3e-324".toList "3e-324".toList :=
    Text.trim_eq_iff.mp (by decide +kernel)
  have hwritten : (Numeral.decimal false ['3'] [] (-324)).Written "3e-324".toList :=
    .intro .none (.decimal (.integer (List.cons_ne_nil '3' []) (by simp)
      (.given (Or.inl rfl) .minus (List.cons_ne_nil '3' ['2', '4']) (by simp))))
  obtain ⟨hback, whole, fraction, htext, hminimal⟩ :=
    written_decimal_is_minimal false least (by decide)
  cases (htext _).mp least_written
  obtain ⟨-, hnearest⟩ := hminimal "3e-324" _ false ['3'] [] (-324) htrimmed hwritten hread
  have hown : significantCount ['0'] leastFraction = 1 := by decide +kernel
  have hother : significantCount ['3'] [] = 1 := by decide +kernel
  exact ⟨by decide, least_write, hback, hown, hother, hread, hnearest (hother.trans hown.symm)⟩

end Storyline.Number

import Storyline.Proofs.NumeralGrammar
import Storyline.Proofs.ShortestDecimals

/-! # Doubles are read back

The text of a double is digits before the point and, if there are any, digits behind it. Wherever
the point stands among the digits, and whatever zeros fill the places up to it, they are a decimal
of the grammar, the one that the search has found, and that rounds to the double.
-/
namespace Storyline.Number

open Json.Literal (writeFraction isDigit_toDigits ofDigits_toDigits)

theorem writeFraction_given {digits : List Char} (h : digits ≠ []) :
    writeFraction digits = '.' :: digits := by
  rw [writeFraction, List.isEmpty_eq_false_iff.mpr h]
  rfl

/-- The text is digits before the point and, if there are any, digits behind it; `number` is what
all of them write, and the last `places` of them stand behind the point. -/
structure Pointed (whole fraction text : List Char) (number places : Nat) : Prop where
  text_eq : text = whole ++ writeFraction fraction
  whole_digits : ∀ c ∈ whole, c.isDigit
  given : whole ≠ []
  fraction_digits : ∀ c ∈ fraction, c.isDigit
  number_eq : ofDigits (whole ++ fraction) = number
  places_eq : fraction.length = places

namespace Pointed

variable {whole fraction text : List Char} {number places : Nat}

theorem decimalText (h : Pointed whole fraction text number places) :
    DecimalText whole fraction 0 text := by
  rw [h.text_eq]
  by_cases hempty : fraction = []
  · subst hempty
    exact .integer h.given h.whole_digits .none
  · have hpointed : DecimalText whole fraction 0 (whole ++ '.' :: (fraction ++ [])) :=
      .pointed (Or.inl h.given) h.whole_digits h.fraction_digits .none
    rwa [List.append_nil, ← writeFraction_given hempty] at hpointed

theorem not_blank (h : Pointed whole fraction text number places) :
    ∀ c ∈ text, ¬ Text.isBlank c := by
  have hpoint : ∀ c ∈ writeFraction fraction, ¬ Text.isBlank c := by
    intro c hc
    unfold writeFraction at hc
    split at hc
    · cases hc
    · rcases List.mem_cons.mp hc with rfl | hmem
      · decide
      · exact isBlank_digit (h.fraction_digits c hmem)
  intro c hc
  rw [h.text_eq] at hc
  exact (List.mem_append.mp hc).elim (fun hmem => isBlank_digit (h.whole_digits c hmem)) (hpoint c)

end Pointed

theorem isDigit_zeros (k : Nat) : ∀ c ∈ List.replicate k '0', c.isDigit := by
  intro c hc
  rw [List.eq_of_mem_replicate hc]
  rfl

section Layout

variable {digits : List Char} {places : Nat}

theorem pointed_integer (hdigits : ∀ c ∈ digits, c.isDigit) (hgiven : digits ≠ []) (zeros : Nat) :
    Pointed (digits ++ List.replicate zeros '0') [] (digits ++ List.replicate zeros '0')
      (ofDigits digits * 10 ^ zeros) 0 where
  text_eq := (List.append_nil _).symm
  whole_digits c hc := (List.mem_append.mp hc).elim (hdigits c) (isDigit_zeros zeros c)
  given := List.append_ne_nil_of_left_ne_nil hgiven _
  fraction_digits := nofun
  number_eq := by rw [List.append_nil, ofDigits_append_zeros]
  places_eq := List.length_nil

theorem pointed_inside (hdigits : ∀ c ∈ digits, c.isDigit) (hpositive : 0 < places)
    (hinside : places < digits.length) :
    Pointed (digits.take (digits.length - places)) (digits.drop (digits.length - places))
      (digits.take (digits.length - places) ++ '.' :: digits.drop (digits.length - places))
      (ofDigits digits) places where
  text_eq := by
    have hbehind : digits.drop (digits.length - places) ≠ [] := by
      rw [Ne, List.drop_eq_nil_iff]
      omega
    rw [writeFraction_given hbehind]
  whole_digits c hc := hdigits c (List.mem_of_mem_take hc)
  given := by
    refine List.ne_nil_of_length_pos ?_
    rw [List.length_take]
    omega
  fraction_digits c hc := hdigits c (List.mem_of_mem_drop hc)
  number_eq := by rw [List.take_append_drop]
  places_eq := by
    rw [List.length_drop]
    omega

theorem pointed_outside (hdigits : ∀ c ∈ digits, c.isDigit) (hgiven : digits ≠ [])
    (houtside : digits.length ≤ places) :
    Pointed ['0'] (List.replicate (places - digits.length) '0' ++ digits)
      ('0' :: '.' :: (List.replicate (places - digits.length) '0' ++ digits))
      (ofDigits digits) places where
  text_eq := by
    rw [writeFraction_given (List.append_ne_nil_of_right_ne_nil _ hgiven)]
    rfl
  whole_digits := isDigit_zeros 1
  given := List.cons_ne_nil _ _
  fraction_digits c hc := (List.mem_append.mp hc).elim (isDigit_zeros _ c) (hdigits c)
  number_eq := ofDigits_zeros_append (places - digits.length + 1) digits
  places_eq := by
    rw [List.length_append, List.length_replicate]
    omega

theorem layout_pointed (n : Nat) (exponent : Int) : ∃ whole fraction,
    Pointed whole fraction (layout (Nat.toDigits 10 n) exponent) (n * 10 ^ exponent.toNat)
      (-exponent).toNat := by
  have hdigits := isDigit_toDigits n
  have hgiven : Nat.toDigits 10 n ≠ [] := Nat.toDigits_ne_nil
  have hnumber := ofDigits_toDigits n
  unfold layout
  split
  · next hinteger =>
    have hzeros : exponent.natAbs = exponent.toNat := by omega
    have hnone : (-exponent).toNat = 0 := by omega
    have h := pointed_integer hdigits hgiven exponent.toNat
    rw [hnumber] at h
    rw [hzeros, hnone]
    exact ⟨_, _, h⟩
  · next hbelow =>
    have hzeros : exponent.toNat = 0 := by omega
    have hplaces : (-exponent).toNat = exponent.natAbs := by omega
    rw [hzeros, hplaces, Nat.pow_zero, Nat.mul_one]
    dsimp only
    split
    · next hinside =>
      have h := pointed_inside hdigits (Int.natAbs_pos.mpr (by omega)) hinside
      rw [hnumber] at h
      exact ⟨_, _, h⟩
    · next houtside =>
      have h := pointed_outside hdigits hgiven (Nat.le_of_not_lt houtside)
      rw [hnumber] at h
      exact ⟨_, _, h⟩

end Layout

/-- What is written is the decimal that the search has found, with zeros that fill the places. -/
theorem writeUnits_found (size : Magnitude) (hsize : size.units ≠ 0) :
    ∃ (whole fraction : List Char) (number places digits grid : ℕ),
      Pointed whole fraction (writeUnits size.units) number places ∧
      Found size.units (size.units * decimalScale) digits grid ∧
      places ≤ 1074 ∧ number * 10 ^ (1074 - places) = digits * 10 ^ grid := by
  obtain ⟨digits, grid, moved, hfound, hexponent, hsteps⟩ := shortest_found size.onGrid hsize
  rw [writeUnits, if_neg hsize]
  generalize shortest size.units = written at hexponent hsteps ⊢
  obtain ⟨leading, exponent⟩ := written
  dsimp only at hexponent hsteps ⊢
  obtain ⟨whole, fraction, hpointed⟩ := layout_pointed leading exponent
  have hplaces : exponent.toNat + (1074 - (-exponent).toNat) = moved := by omega
  refine ⟨whole, fraction, _, _, digits, grid, hpointed, hfound, by omega, ?_⟩
  rw [Nat.mul_assoc, ← Nat.pow_add, hplaces, hsteps]

namespace Binary64

variable {negative : Bool} {text : List Char}

theorem writeUnits_pointed (size : Magnitude) : ∃ whole fraction number places,
    Pointed whole fraction (writeUnits size.units) number places ∧
      ∀ negative, ofDecimal negative number (-places) = .finite negative size := by
  by_cases hsize : size.units = 0
  · rw [writeUnits, if_pos hsize]
    refine ⟨['0'], [], 0, 0, ⟨rfl, isDigit_zeros 1, List.cons_ne_nil _ _, nofun, rfl, rfl⟩,
      fun negative => ?_⟩
    rw [ofDecimal, if_pos rfl, zero]
    exact round_eq_finite ((toGrid_zero 1).trans hsize.symm)
  · obtain ⟨whole, fraction, number, places, digits, grid, hpointed, hfound, hplaces, hsteps⟩ :=
      writeUnits_found size hsize
    refine ⟨whole, fraction, number, places, hpointed, fun negative => ?_⟩
    exact ofDecimal_of_readsBack hplaces (hsteps ▸ hfound.neighbour.reads)

theorem takeSign_signed (h : takeSign text = (false, text)) (negative : Bool) :
    takeSign (write.signed negative text) = (negative, text) := by
  cases negative with
  | false => exact h
  | true => rfl

theorem signed_not_blank (h : ∀ c ∈ text, ¬ Text.isBlank c) (negative : Bool) :
    ∀ c ∈ write.signed negative text, ¬ Text.isBlank c := by
  cases negative with
  | false => exact h
  | true => exact List.forall_mem_cons.mpr ⟨by decide, h⟩

/-- Every double is read back from its text: the two zeros, numbers of any size, the two infinities
and NaN. -/
theorem read_write (x : Binary64) : Binary64.read x.write = some x := by
  cases x with
  | nan => decide +kernel
  | infinite negative => cases negative <;> decide +kernel
  | finite negative size =>
    obtain ⟨whole, fraction, number, places, hpointed, hdecimal⟩ := writeUnits_pointed size
    have hsign : takeSign (writeUnits size.units) = (false, writeUnits size.units) :=
      (show Numeral.Unsigned negative _ _ from .decimal hpointed.decimalText).no_sign
    rw [write, Binary64.read, String.toList_ofList,
      Text.trim_word (signed_not_blank hpointed.not_blank negative), takeSign_signed hsign]
    dsimp only
    rw [readUnsigned_decimal hpointed.decimalText, hpointed.number_eq, hpointed.places_eq,
      zero_sub, hdecimal]

end Binary64
end Storyline.Number

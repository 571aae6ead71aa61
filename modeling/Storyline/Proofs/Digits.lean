import Mathlib.Data.List.Basic
import Mathlib.Tactic.Ring
import Storyline.Number.Numeral
import Storyline.Proofs.Trimming

/-! # Digits

The number that a row of digits writes. The zeros at both ends of a row only fill places: without
them the row writes a number that does not end in zero, and its length is the least that any way of
writing the number has.
-/
namespace Storyline.Number

section Digits

variable {c : Char}

theorem digit_bounds (hc : c.isDigit) : 48 ≤ c.toNat ∧ c.toNat ≤ 57 := Char.isDigit_iff_toNat.mp hc

theorem isBlank_digit (hc : c.isDigit) : ¬ Text.isBlank c := by
  have := digit_bounds hc
  simp [Text.isBlank]
  omega

theorem ofDigits_zeros_append (k : Nat) (digits : List Char) :
    ofDigits (List.replicate k '0' ++ digits) = ofDigits digits := by
  rw [ofDigits, Nat.ofDigitChars_append, Nat.ofDigitChars_replicate_zero, Nat.mul_zero, ofDigits]

theorem ofDigits_append_zeros (digits : List Char) (k : Nat) :
    ofDigits (digits ++ List.replicate k '0') = ofDigits digits * 10 ^ k := by
  rw [ofDigits, Nat.ofDigitChars_append, Nat.ofDigitChars_replicate_zero, Nat.mul_comm, ofDigits]

theorem ofDigits_append (digits more : List Char) :
    ofDigits (digits ++ more) = ofDigits digits * 10 ^ more.length + ofDigits more := by
  rw [ofDigits, Nat.ofDigitChars_append, Nat.ofDigitChars_eq_ofDigitChars_zero, Nat.mul_comm]
  rfl

end Digits

def significant (digits : List Char) : List Char :=
  ((digits.dropWhile (· == '0')).reverse.dropWhile (· == '0')).reverse

/-- The number is `leading` with zeros behind it, and `leading` has `count` digits, of which
neither the first nor the last is zero. -/
structure Leading (n leading zeros count : ℕ) : Prop where
  number_eq : n = leading * 10 ^ zeros
  last : ¬ 10 ∣ leading
  lower : 10 ^ count ≤ 10 * leading
  upper : leading < 10 ^ count

namespace Leading

variable {n leading zeros count : ℕ}

theorem pos (h : Leading n leading zeros count) : 0 < leading := by
  apply Nat.pos_of_ne_zero
  rintro rfl
  exact h.last (Nat.dvd_zero 10)

theorem count_pos (h : Leading n leading zeros count) : 0 < count := by
  apply Nat.pos_of_ne_zero
  rintro rfl
  have := h.upper
  have := h.pos
  omega

theorem count_le (h : Leading n leading zeros count) {other moved places m : ℕ}
    (hsame : n * 10 ^ moved = other * 10 ^ places) (hother : other < 10 ^ m) : count ≤ m := by
  have hpos : ∀ k, 0 < 10 ^ k := fun k => Nat.pow_pos (by decide)
  rw [h.number_eq, Nat.mul_assoc, ← Nat.pow_add] at hsame
  have hle : leading ≤ other := by
    rcases Nat.lt_or_ge (zeros + moved) places with hlt | hge
    · -- more zeros than are there would make the last digit a zero
      obtain ⟨more, rfl⟩ := Nat.exists_eq_add_of_lt hlt
      have hzero : leading = 10 * (other * 10 ^ more) := by
        apply Nat.eq_of_mul_eq_mul_right (hpos (zeros + moved))
        rw [hsame]
        ring
      exact absurd ⟨_, hzero⟩ h.last
    · obtain ⟨more, hmore⟩ := Nat.exists_eq_add_of_le hge
      have hwhole : other = leading * 10 ^ more := by
        apply Nat.eq_of_mul_eq_mul_right (hpos places)
        rw [← hsame, hmore]
        ring
      rw [hwhole]
      exact Nat.le_mul_of_pos_right leading (hpos more)
  have hpower : 10 ^ count < 10 ^ (m + 1) :=
    calc 10 ^ count
        ≤ 10 * leading := h.lower
      _ < 10 * 10 ^ m := by omega
      _ = 10 ^ (m + 1) := by ring
  exact Nat.le_of_lt_succ ((Nat.pow_lt_pow_iff_right (by decide)).mp hpower)

end Leading

section Zeros

variable {digits : List Char}

theorem significant_spec (digits : List Char) : ∃ front behind,
    digits = List.replicate front '0' ++ (significant digits ++ List.replicate behind '0') ∧
      (∀ c ∈ (significant digits).head?, c ≠ '0') ∧
      ∀ c ∈ (significant digits).getLast?, c ≠ '0' := by
  obtain ⟨front, rest, hfrontRest, hfront, hrest⟩ := Text.exists_span (· == '0') digits
  obtain ⟨back, core, hbackCore, hback, hcore⟩ := Text.exists_span (· == '0') rest.reverse
  have hsignificant : significant digits = core.reverse := by
    rw [significant, hfrontRest, Text.dropWhile_span hfront hrest, hbackCore,
      Text.dropWhile_span hback hcore]
  have hsplit : rest = core.reverse ++ back.reverse := by
    rw [← List.reverse_append, ← hbackCore, List.reverse_reverse]
  have hzeros : ∀ zeros : List Char, (∀ c ∈ zeros, c == '0') →
      zeros = List.replicate zeros.length '0' := by
    intro zeros h
    exact List.eq_replicate_of_mem fun c hc => by simpa using h c hc
  refine ⟨front.length, back.length, ?_, ?_, ?_⟩
  · rw [hsignificant, ← hzeros front hfront, ← List.reverse_replicate, ← hzeros back hback,
      ← hsplit, hfrontRest]
  · intro c hc
    rw [hsignificant] at hc
    simpa using hrest c (hsplit ▸ Text.mem_head_append hc _)
  · intro c hc
    rw [hsignificant, List.getLast?_reverse] at hc
    simpa using hcore c hc

end Zeros

section Values

variable {digits : List Char}

theorem ofDigits_cons (c : Char) (digits : List Char) :
    ofDigits (c :: digits) = (c.toNat - 48) * 10 ^ digits.length + ofDigits digits := by
  have h := ofDigits_append [c] digits
  rw [List.singleton_append] at h
  rw [h]
  simp [ofDigits, Nat.ofDigitChars_cons]

theorem ofDigits_lt (hdigits : ∀ c ∈ digits, c.isDigit) : ofDigits digits < 10 ^ digits.length := by
  induction digits with
  | nil => decide
  | cons c digits ih =>
    obtain ⟨hc, hdigits⟩ := List.forall_mem_cons.mp hdigits
    have hbounds := digit_bounds hc
    have hrest := ih hdigits
    have hfirst : (c.toNat - 48) * 10 ^ digits.length ≤ 9 * 10 ^ digits.length :=
      Nat.mul_le_mul_right _ (by omega)
    rw [ofDigits_cons, List.length_cons, Nat.pow_succ]
    omega

theorem digit_ne_zero {c : Char} (hc : c.isDigit) (hzero : c ≠ '0') : 0 < c.toNat - 48 := by
  have hbounds := digit_bounds hc
  have : c.toNat ≠ 48 := fun h => hzero (Char.toNat_inj.mp h)
  omega

/-- A row of digits that does not write zero has as many significant digits as its number. -/
theorem leading_significant (hdigits : ∀ c ∈ digits, c.isDigit) (hzero : ofDigits digits ≠ 0) :
    ∃ zeros, Leading (ofDigits digits) (ofDigits (significant digits)) zeros
      (significant digits).length := by
  obtain ⟨front, behind, hsplit, hfirst, hlast⟩ := significant_spec digits
  have hnumber : ofDigits digits = ofDigits (significant digits) * 10 ^ behind := by
    conv_lhs => rw [hsplit]
    rw [ofDigits_zeros_append, ofDigits_append_zeros]
  have hcore : ∀ c ∈ significant digits, c.isDigit := by
    intro c hc
    apply hdigits
    rw [hsplit]
    simp [hc]
  generalize significant digits = core at hnumber hfirst hlast hcore
  refine ⟨behind, hnumber, ?_, ?_, ofDigits_lt hcore⟩
  · rcases List.eq_nil_or_concat' core with rfl | ⟨init, d, rfl⟩
    · exact absurd hnumber (by simpa [ofDigits] using hzero)
    · have hd := digit_ne_zero (hcore d (by simp)) (hlast d (by simp))
      have hbounds := digit_bounds (hcore d (by simp))
      rw [ofDigits_append, ofDigits_cons]
      simp only [List.length_singleton, List.length_nil, ofDigits, Nat.ofDigitChars_nil]
      omega
  · cases core with
    | nil => exact absurd hnumber (by simpa [ofDigits] using hzero)
    | cons c rest =>
      have hc := digit_ne_zero (hcore c List.mem_cons_self) (hfirst c rfl)
      have hpower := Nat.le_mul_of_pos_left (10 ^ rest.length) hc
      rw [ofDigits_cons, List.length_cons, Nat.pow_succ]
      omega

end Values

end Storyline.Number

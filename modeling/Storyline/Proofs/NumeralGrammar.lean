import Mathlib.Data.List.Forall2
import Storyline.Proofs.DecimalReading
import Storyline.Proofs.Digits
import Storyline.Proofs.JsonTokens

/-! # The grammar of numerals

What numerals there are and what each of them says, told without the reader: a sign, then one of
the words in any letter case or a decimal. The reader accepts just these, without the blanks
around them, and answers the double that the exact value of the decimal is rounded to.
-/
namespace Storyline.Number

open Json.Literal (takeSign_digits)

/-- What a text can say: an infinity, NaN, or the digits on both sides of the point and the
exponent. -/
inductive Numeral where
  | infinity (negative : Bool)
  | nan
  | decimal (negative : Bool) (whole fraction : List Char) (exponent : ℤ)

inductive SignText : Bool → List Char → Prop
  | none : SignText false []
  | plus : SignText false ['+']
  | minus : SignText true ['-']

def Spelled (word text : List Char) : Prop :=
  List.Forall₂ (fun letter c => c = letter ∨ c = letter.toUpper) word text

inductive ExponentText : ℤ → List Char → Prop
  | none : ExponentText 0 []
  | given {negative mark sign digits} : mark = 'e' ∨ mark = 'E' → SignText negative sign →
      digits ≠ [] → (∀ c ∈ digits, c.isDigit) →
      ExponentText (if negative then -ofDigits digits else ofDigits digits)
        (mark :: (sign ++ digits))

/-- Digits with or without a point among them or at one end, and an exponent. A point alone is not
enough. -/
inductive DecimalText : List Char → List Char → ℤ → List Char → Prop
  | integer {whole exponent tail} : whole ≠ [] → (∀ c ∈ whole, c.isDigit) →
      ExponentText exponent tail → DecimalText whole [] exponent (whole ++ tail)
  | pointed {whole fraction exponent tail} : whole ≠ [] ∨ fraction ≠ [] →
      (∀ c ∈ whole, c.isDigit) → (∀ c ∈ fraction, c.isDigit) → ExponentText exponent tail →
      DecimalText whole fraction exponent (whole ++ '.' :: (fraction ++ tail))

namespace Numeral

inductive Unsigned (negative : Bool) : Numeral → List Char → Prop
  | infinity {word} : Spelled ['i', 'n', 'f'] word ∨
      Spelled ['i', 'n', 'f', 'i', 'n', 'i', 't', 'y'] word →
      Unsigned negative (.infinity negative) word
  | nan {word} : Spelled ['n', 'a', 'n'] word → Unsigned negative .nan word
  | decimal {whole fraction exponent text} : DecimalText whole fraction exponent text →
      Unsigned negative (.decimal negative whole fraction exponent) text

/-- The text is the numeral, with nothing around it. -/
inductive Written (n : Numeral) : List Char → Prop
  | intro {negative sign rest} : SignText negative sign → n.Unsigned negative rest →
      Written n (sign ++ rest)

def size (whole fraction : List Char) (exponent : ℤ) : ℚ :=
  (ofDigits whole + ofDigits fraction / 10 ^ fraction.length) * 10 ^ exponent

/-- The double that the numeral stands for. -/
inductive Denotes : Numeral → Binary64 → Prop
  | infinity {negative} : Denotes (.infinity negative) (.infinite negative)
  | nan : Denotes .nan .nan
  | decimal {negative whole fraction exponent x} :
      Binary64.Rounds negative (size whole fraction exponent) x →
      Denotes (.decimal negative whole fraction exponent) x

theorem Denotes.unique {n : Numeral} {x y : Binary64} (hx : n.Denotes x) (hy : n.Denotes y) :
    x = y := by
  cases hx with
  | infinity =>
    cases hy
    rfl
  | nan =>
    cases hy
    rfl
  | decimal hx =>
    cases hy with
    | decimal hy => exact hx.unique hy

end Numeral

section Letters

variable {c letter : Char} {word text : List Char}

theorem isLower_iff_toNat : letter.isLower ↔ 97 ≤ letter.toNat ∧ letter.toNat ≤ 122 := by
  have hlower : 'a'.val ≤ letter.val ↔ 97 ≤ letter.toNat := UInt32.le_iff_toNat_le
  have hupper : letter.val ≤ 'z'.val ↔ letter.toNat ≤ 122 := UInt32.le_iff_toNat_le
  rw [← hlower, ← hupper]
  exact (Bool.and_eq_true_iff).trans (and_congr decide_eq_true_iff decide_eq_true_iff)

theorem toNat_toLower (c : Char) :
    c.toLower.toNat = if 65 ≤ c.toNat ∧ c.toNat ≤ 90 then c.toNat + 32 else c.toNat := by
  have hcapital : c.val ≥ 'A'.val ∧ c.val ≤ 'Z'.val ↔ 65 ≤ c.toNat ∧ c.toNat ≤ 90 :=
    and_congr UInt32.le_iff_toNat_le UInt32.le_iff_toNat_le
  unfold Char.toLower
  split
  · next h =>
    have hbounds := hcapital.mp h
    rw [if_pos hbounds, Char.toNat_mk, UInt32.toNat_add, Char.toNat_val]
    exact Nat.mod_eq_of_lt (by simp; omega)
  · next h => rw [if_neg (mt hcapital.mpr h)]

theorem toNat_toUpper (h : letter.isLower) : letter.toUpper.toNat + 32 = letter.toNat := by
  have hbounds := isLower_iff_toNat.mp h
  have hval : 'a'.val ≤ letter.val ∧ letter.val ≤ 'z'.val :=
    ⟨UInt32.le_iff_toNat_le.mpr hbounds.1, UInt32.le_iff_toNat_le.mpr hbounds.2⟩
  have hdistance : ('A'.val - 'a'.val).toNat = 2 ^ 32 - 32 := rfl
  delta Char.toUpper
  rw [dif_pos hval, Char.toNat_mk, UInt32.toNat_add, Char.toNat_val]
  omega

theorem toLower_eq_iff (hletter : letter.isLower) :
    c.toLower = letter ↔ c = letter ∨ c = letter.toUpper := by
  have hbounds := isLower_iff_toNat.mp hletter
  have hlower := toNat_toLower c
  have hupper := toNat_toUpper hletter
  simp only [← Char.toNat_inj]
  split at hlower <;> omega

theorem spelled_iff (hword : ∀ letter ∈ word, letter.isLower) :
    Spelled word text ↔ text.map Char.toLower = word := by
  unfold Spelled
  induction word generalizing text with
  | nil => simp
  | cons letter word ih =>
    obtain ⟨hletter, hword⟩ := List.forall_mem_cons.mp hword
    cases text with
    | nil => simp
    | cons c text =>
      rw [List.forall₂_cons, ih hword, List.map_cons, List.cons.injEq, toLower_eq_iff hletter]

theorem spelled_inf : Spelled ['i', 'n', 'f'] text ↔ text.map Char.toLower = ['i', 'n', 'f'] :=
  spelled_iff (by simp)

theorem spelled_infinity : Spelled ['i', 'n', 'f', 'i', 'n', 'i', 't', 'y'] text ↔
    text.map Char.toLower = ['i', 'n', 'f', 'i', 'n', 'i', 't', 'y'] :=
  spelled_iff (by simp)

theorem spelled_nan : Spelled ['n', 'a', 'n'] text ↔ text.map Char.toLower = ['n', 'a', 'n'] :=
  spelled_iff (by simp)

end Letters

section Signs

variable {negative : Bool} {sign text : List Char}

theorem takeSign_append (hsign : SignText negative sign) (htext : takeSign text = (false, text)) :
    takeSign (sign ++ text) = (negative, text) := by
  cases hsign with
  | none => exact htext
  | plus => rfl
  | minus => rfl

theorem exists_sign (text : List Char) :
    ∃ sign, SignText (takeSign text).1 sign ∧ text = sign ++ (takeSign text).2 := by
  unfold takeSign
  split
  · exact ⟨_, .minus, rfl⟩
  · exact ⟨_, .plus, rfl⟩
  · exact ⟨_, .none, rfl⟩

end Signs

section Exponents

variable {exponent : ℤ} {text : List Char}

theorem readExponent_of_text (h : ExponentText exponent text) :
    readExponent text = some exponent := by
  cases h with
  | none => rfl
  | @given negative mark sign digits hmark hsign hgiven hdigits =>
    have hstart : takeSign (digits ++ []) = (false, digits ++ []) := takeSign_digits hdigits hgiven
    rw [List.append_nil] at hstart
    have hmarked : (mark == 'e' || mark == 'E') = true := by simpa using hmark
    have hempty : digits.isEmpty = false := List.isEmpty_eq_false_iff.mpr hgiven
    have hall : digits.all Char.isDigit = true := List.all_eq_true.mpr hdigits
    simp only [readExponent, takeSign_append hsign hstart, hmarked, hempty, hall, Bool.not_false,
      Bool.and_true, if_true]

theorem text_of_readExponent (h : readExponent text = some exponent) :
    ExponentText exponent text := by
  cases text with
  | nil =>
    cases h
    exact .none
  | cons mark rest =>
    obtain ⟨sign, hsign, hrest⟩ := exists_sign rest
    generalize htake : takeSign rest = taken at hsign hrest
    obtain ⟨negative, digits⟩ := taken
    dsimp only at hsign hrest
    simp only [readExponent, htake, Option.ite_none_right_eq_some, Bool.and_eq_true,
      Bool.or_eq_true, beq_iff_eq, Bool.not_eq_true', List.isEmpty_eq_false_iff,
      List.all_eq_true, Option.some.injEq] at h
    obtain ⟨⟨⟨hmark, hgiven⟩, hdigits⟩, rfl⟩ := h
    rw [hrest]
    exact .given hmark hsign hgiven hdigits

theorem ExponentText.unique {other : ℤ} (h : ExponentText exponent text)
    (h' : ExponentText other text) : exponent = other :=
  Option.some.inj ((readExponent_of_text h).symm.trans (readExponent_of_text h'))

theorem ExponentText.stops (h : ExponentText exponent text) : ∀ c ∈ text.head?, ¬ c.isDigit := by
  intro c hc
  cases h with
  | none => cases hc
  | given hmark =>
    cases hc
    rcases hmark with rfl | rfl <;> decide

theorem ExponentText.not_point (h : ExponentText exponent text) (rest : List Char) :
    text ≠ '.' :: rest := by
  rintro rfl
  cases h with
  | given hmark => exact absurd hmark (by decide)

end Exponents

section Decimals

variable {whole fraction whole' fraction' text : List Char} {exponent exponent' : ℤ} {d : Decimal}

theorem DecimalText.read (h : DecimalText whole fraction exponent text) :
    Decimal.read text = some ⟨ofDigits (whole ++ fraction), exponent - fraction.length⟩ := by
  cases h with
  | integer hgiven hwhole htail =>
    have hempty : whole.isEmpty = false := List.isEmpty_eq_false_iff.mpr hgiven
    rw [Decimal.read]
    simp only [Text.takeWhile_span hwhole htail.stops, Text.dropWhile_span hwhole htail.stops]
    split
    · next rest => exact absurd rfl (htail.not_point rest)
    · simp [hempty, readExponent_of_text htail]
  | pointed hgiven hwhole hfraction htail =>
    have hpoint : ∀ rest, ∀ c ∈ ('.' :: rest).head?, ¬ c.isDigit := by simp
    have hempty : (whole.isEmpty && fraction.isEmpty) = false := by
      simpa [Classical.or_iff_not_imp_left] using hgiven
    rw [Decimal.read]
    simp only [Text.takeWhile_span hwhole (hpoint _), Text.dropWhile_span hwhole (hpoint _),
      Text.takeWhile_span hfraction htail.stops, Text.dropWhile_span hfraction htail.stops, hempty,
      readExponent_of_text htail, Bool.false_eq_true, if_false, Option.map_some]

theorem text_of_read (h : Decimal.read text = some d) :
    ∃ whole fraction exponent, DecimalText whole fraction exponent text := by
  obtain ⟨whole, rest, rfl, hwhole, hrest⟩ := Text.exists_span Char.isDigit text
  rw [Decimal.read] at h
  simp only [Text.takeWhile_span hwhole hrest, Text.dropWhile_span hwhole hrest] at h
  split at h
  · next rest =>
    obtain ⟨fraction, tail, rfl, hfraction, htail⟩ := Text.exists_span Char.isDigit rest
    simp only [Text.takeWhile_span hfraction htail, Text.dropWhile_span hfraction htail,
      Option.ite_none_left_eq_some, Option.map_eq_some_iff, Bool.and_eq_true, List.isEmpty_iff] at h
    obtain ⟨hgiven, exponent, hexponent, -⟩ := h
    exact ⟨whole, fraction, exponent,
      .pointed (not_and_or.mp hgiven) hwhole hfraction (text_of_readExponent hexponent)⟩
  · next hpoint =>
    simp only [Option.ite_none_left_eq_some, Option.map_eq_some_iff, List.isEmpty_iff] at h
    obtain ⟨hgiven, exponent, hexponent, -⟩ := h
    exact ⟨whole, [], exponent, .integer hgiven hwhole (text_of_readExponent hexponent)⟩

theorem DecimalText.starts (h : DecimalText whole fraction exponent text) :
    ∃ c rest, text = c :: rest ∧ (c.isDigit ∨ c = '.') := by
  cases h with
  | integer hgiven hwhole htail =>
    obtain ⟨c, more, rfl⟩ := List.exists_cons_of_ne_nil hgiven
    exact ⟨c, _, rfl, Or.inl (hwhole c List.mem_cons_self)⟩
  | pointed hgiven hwhole hfraction htail =>
    cases whole with
    | nil => exact ⟨'.', _, rfl, Or.inr rfl⟩
    | cons c more => exact ⟨c, _, rfl, Or.inl (hwhole c List.mem_cons_self)⟩

theorem DecimalText.unique (h : DecimalText whole fraction exponent text)
    (h' : DecimalText whole' fraction' exponent' text) :
    whole = whole' ∧ fraction = fraction' ∧ exponent = exponent' := by
  have hpoint : ∀ rest, ∀ c ∈ ('.' :: rest).head?, ¬ c.isDigit := by simp
  generalize hsame : text = text' at h'
  cases h with
  | integer hgiven hwhole htail =>
    cases h' with
    | integer hgiven' hwhole' htail' =>
      obtain ⟨rfl, rfl⟩ := Text.span_unique hsame hwhole htail.stops hwhole' htail'.stops
      exact ⟨rfl, rfl, htail.unique htail'⟩
    | pointed hgiven' hwhole' hfraction' htail' =>
      obtain ⟨-, rfl⟩ := Text.span_unique hsame hwhole htail.stops hwhole' (hpoint _)
      exact absurd rfl (htail.not_point _)
  | pointed hgiven hwhole hfraction htail =>
    cases h' with
    | integer hgiven' hwhole' htail' =>
      obtain ⟨-, rfl⟩ := Text.span_unique hsame hwhole (hpoint _) hwhole' htail'.stops
      exact absurd rfl (htail'.not_point _)
    | pointed hgiven' hwhole' hfraction' htail' =>
      obtain ⟨rfl, hrest⟩ := Text.span_unique hsame hwhole (hpoint _) hwhole' (hpoint _)
      obtain ⟨rfl, rfl⟩ := Text.span_unique (List.cons.inj hrest).2 hfraction htail.stops
        hfraction' htail'.stops
      exact ⟨rfl, rfl, htail.unique htail'⟩

theorem Numeral.size_eq (whole fraction : List Char) (exponent : ℤ) :
    size whole fraction exponent =
      ofDigits (whole ++ fraction) * (10 : ℚ) ^ (exponent - fraction.length) := by
  have hten : (10 : ℚ) ≠ 0 := by decide
  have hpower : (10 : ℚ) ^ fraction.length ≠ 0 := pow_ne_zero _ hten
  rw [size, ofDigits_append, zpow_sub₀ hten, zpow_natCast]
  push_cast
  field_simp

end Decimals

section Reading

variable {n n' : Numeral} {negative : Bool} {text core : List Char} {x : Binary64}

theorem spelled_starts {letter : Char} {word : List Char} (h : Spelled (letter :: word) text) :
    ∃ c rest, text = c :: rest ∧ (c = letter ∨ c = letter.toUpper) := by
  cases h with
  | cons hc => exact ⟨_, _, rfl, hc⟩

theorem Numeral.Unsigned.no_sign (h : n.Unsigned negative text) :
    takeSign text = (false, text) := by
  cases h with
  | infinity hword =>
    rcases hword with hword | hword <;> obtain ⟨c, rest, rfl, hc⟩ := spelled_starts hword <;>
      rcases hc with rfl | rfl <;> rfl
  | nan hword =>
    obtain ⟨c, rest, rfl, hc⟩ := spelled_starts hword
    rcases hc with rfl | rfl <;> rfl
  | decimal hdecimal =>
    obtain ⟨c, rest, rfl, hc⟩ := hdecimal.starts
    rcases hc with hdigit | rfl
    · have hdigits : ∀ x ∈ [c], x.isDigit := by simpa using hdigit
      exact takeSign_digits hdigits (List.cons_ne_nil c [])
    · rfl

section Words

variable {whole fraction : List Char} {exponent : ℤ}

theorem DecimalText.not_spelled {letter : Char} {word : List Char}
    (h : DecimalText whole fraction exponent text) (hletter : letter = 'i' ∨ letter = 'n') :
    ¬ Spelled (letter :: word) text := by
  intro hword
  obtain ⟨c, rest, rfl, hc⟩ := h.starts
  obtain ⟨_, _, hsplit, hspelled⟩ := spelled_starts hword
  cases hsplit
  rcases hletter with rfl | rfl <;> rcases hspelled with rfl | rfl <;> exact absurd hc (by decide)

theorem DecimalText.not_infinity (h : DecimalText whole fraction exponent text) :
    ¬ (Spelled ['i', 'n', 'f'] text ∨ Spelled ['i', 'n', 'f', 'i', 'n', 'i', 't', 'y'] text) :=
  not_or.mpr ⟨h.not_spelled (Or.inl rfl), h.not_spelled (Or.inl rfl)⟩

theorem DecimalText.not_nan (h : DecimalText whole fraction exponent text) :
    ¬ Spelled ['n', 'a', 'n'] text :=
  h.not_spelled (Or.inr rfl)

theorem infinity_not_nan
    (h : Spelled ['i', 'n', 'f'] text ∨ Spelled ['i', 'n', 'f', 'i', 'n', 'i', 't', 'y'] text) :
    ¬ Spelled ['n', 'a', 'n'] text := by
  rw [spelled_inf, spelled_infinity] at h
  rw [spelled_nan]
  intro hnan
  rw [hnan] at h
  exact absurd h (by decide)

theorem readUnsigned_decimal (h : DecimalText whole fraction exponent text) :
    readUnsigned negative text =
      some (.ofDecimal negative (ofDigits (whole ++ fraction)) (exponent - fraction.length)) := by
  have hinfinity := h.not_infinity
  have hnan := h.not_nan
  rw [spelled_inf, spelled_infinity] at hinfinity
  rw [spelled_nan] at hnan
  rw [readUnsigned, if_neg hinfinity, if_neg hnan, h.read, Option.map_some]

end Words

theorem Numeral.Unsigned.unique (h : n.Unsigned negative text) (h' : n'.Unsigned negative text) :
    n = n' := by
  cases h with
  | infinity hinfinity =>
    cases h' with
    | infinity => rfl
    | nan hnan => exact absurd hnan (infinity_not_nan hinfinity)
    | decimal hdecimal => exact absurd hinfinity hdecimal.not_infinity
  | nan hnan =>
    cases h' with
    | infinity hinfinity => exact absurd hnan (infinity_not_nan hinfinity)
    | nan => rfl
    | decimal hdecimal => exact absurd hnan hdecimal.not_nan
  | decimal hdecimal =>
    cases h' with
    | infinity hinfinity => exact absurd hinfinity hdecimal.not_infinity
    | nan hnan => exact absurd hnan hdecimal.not_nan
    | decimal hdecimal' =>
      obtain ⟨rfl, rfl, rfl⟩ := hdecimal.unique hdecimal'
      rfl

theorem Numeral.Written.unsigned (h : n.Written core) :
    n.Unsigned (takeSign core).1 (takeSign core).2 := by
  obtain ⟨hsign, hunsigned⟩ := h
  rwa [takeSign_append hsign hunsigned.no_sign]

/-- A text is one numeral at most. -/
theorem Numeral.Written.unique (h : n.Written core) (h' : n'.Written core) : n = n' :=
  h.unsigned.unique h'.unsigned

theorem Numeral.Unsigned.read (h : n.Unsigned negative text) :
    ∃ x, readUnsigned negative text = some x ∧ n.Denotes x := by
  cases h with
  | infinity hword =>
    rw [spelled_inf, spelled_infinity] at hword
    exact ⟨_, if_pos hword, .infinity⟩
  | nan hword =>
    rw [spelled_nan] at hword
    exact ⟨.nan, by simp [readUnsigned, hword], .nan⟩
  | @decimal whole fraction exponent text hdecimal =>
    refine ⟨_, readUnsigned_decimal hdecimal, .decimal ?_⟩
    rw [size_eq]
    exact Binary64.ofDecimal_rounds _ _ _

theorem unsigned_of_read (h : readUnsigned negative text = some x) :
    ∃ n : Numeral, n.Unsigned negative text := by
  unfold readUnsigned at h
  dsimp only at h
  split at h
  · next hword =>
    rw [← spelled_inf, ← spelled_infinity] at hword
    exact ⟨_, .infinity hword⟩
  · split at h
    · next hword => exact ⟨_, .nan (spelled_nan.mpr hword)⟩
    · obtain ⟨d, hd, -⟩ := Option.map_eq_some_iff.mp h
      obtain ⟨whole, fraction, exponent, hdecimal⟩ := text_of_read hd
      exact ⟨_, .decimal hdecimal⟩

theorem read_of_trimmed {text : String} (h : Text.Trimmed text.toList core) :
    Binary64.read text = readUnsigned (takeSign core).1 (takeSign core).2 := by
  rw [Binary64.read, Text.trim_of_trimmed h]

theorem Numeral.Written.read {text : String} (h : Text.Trimmed text.toList core)
    (hn : n.Written core) : ∃ x, Binary64.read text = some x ∧ n.Denotes x := by
  rw [read_of_trimmed h]
  exact hn.unsigned.read

theorem written_of_read {text : String} (h : Text.Trimmed text.toList core)
    (hread : Binary64.read text = some x) : ∃ n : Numeral, n.Written core := by
  rw [read_of_trimmed h] at hread
  obtain ⟨sign, hsign, hcore⟩ := exists_sign core
  obtain ⟨n, hunsigned⟩ := unsigned_of_read hread
  rw [hcore]
  exact ⟨n, .intro hsign hunsigned⟩

/-- Without the blanks around it a text is one core. The text is no number just if the core is not
a numeral; if it is one, the answer is the double that the numeral stands for, and no other. -/
theorem numerals_are_read (text : String) :
    ∃ core, (∀ other, Text.Trimmed text.toList other ↔ other = core) ∧
      (Binary64.read text = none ↔ ∀ n : Numeral, ¬ n.Written core) ∧
      ∀ n : Numeral, n.Written core → ∀ x, Binary64.read text = some x ↔ n.Denotes x := by
  have h := Text.trimmed_trim text.toList
  refine ⟨Text.trim text.toList, fun other => ?_, ?_, fun n hn x => ?_⟩
  · rw [← Text.trim_eq_iff, eq_comm]
  · constructor
    · intro hnone n hn
      obtain ⟨x, hsome, -⟩ := hn.read h
      rw [hnone] at hsome
      cases hsome
    · intro hnone
      by_contra hsome
      obtain ⟨x, hx⟩ := Option.ne_none_iff_exists'.mp hsome
      obtain ⟨n, hn⟩ := written_of_read h hx
      exact hnone n hn
  · obtain ⟨y, hread, hy⟩ := hn.read h
    constructor
    · intro hx
      rw [hread, Option.some.injEq] at hx
      exact hx ▸ hy
    · intro hx
      rw [hread, hx.unique hy]

end Reading

theorem halfway_written :
    (Numeral.decimal false "9007199254740993".toList ['0'] 0).Written
      "+9007199254740993.0E-0".toList :=
  .intro .plus (.decimal (.pointed (Or.inr (List.cons_ne_nil '0' [])) (by simp) (by simp)
    (.given (Or.inr rfl) .minus (List.cons_ne_nil '0' []) (by simp))))

/-- The number in the middle between two doubles goes to the even one, whatever is around it; an
exponent mark without digits is no numeral. -/
theorem halfway_is_read :
    (Numeral.decimal false "9007199254740993".toList ['0'] 0).Denotes
        (.ofNat 9007199254740992) ∧
      ∀ n : Numeral, ¬ n.Written "1e".toList := by
  have htrimmed : Text.Trimmed "\u2003+9007199254740993.0E-0\n".toList
      "+9007199254740993.0E-0".toList :=
    Text.trim_eq_iff.mp (by decide +kernel)
  have hmark : Text.Trimmed "1e".toList "1e".toList := Text.trim_eq_iff.mp (by decide +kernel)
  constructor
  · obtain ⟨core, hcore, -, hread⟩ := numerals_are_read "\u2003+9007199254740993.0E-0\n"
    obtain rfl := (hcore _).mp htrimmed
    exact (hread _ halfway_written _).mp (by decide +kernel)
  · obtain ⟨core, hcore, hnone, -⟩ := numerals_are_read "1e"
    obtain rfl := (hcore _).mp hmark
    exact hnone.mp (by decide +kernel)

end Storyline.Number

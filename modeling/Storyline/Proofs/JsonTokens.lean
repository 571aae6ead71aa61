import Mathlib.Data.List.Basic
import Storyline.Json.Token
import Storyline.Proofs.Trimming

/-! # Tokens are read back

A token is read back from its text, whatever starts behind it. Only a number looks at what follows:
its digits, point or exponent could go on there. So a row of tokens is read back if a bracket or a
comma stands behind each number.
-/
namespace Storyline.Json

namespace Literal

/-- Digits before the point, with no needless zero in front, and digits behind it. -/
structure Canonical (l : Literal) : Prop where
  whole : ∀ c ∈ l.whole, c.isDigit
  given : l.whole ≠ []
  leading : l.whole.head? = some '0' → l.whole.length = 1
  fraction : ∀ c ∈ l.fraction, c.isDigit

/-- What stands behind a number cannot be taken for a part of it. -/
def Stops (rest : List Char) : Prop :=
  ∀ c ∈ rest.head?, ¬ c.isDigit ∧ c ≠ '.' ∧ c ≠ 'e' ∧ c ≠ 'E'

theorem isDigit_toDigits (n : Nat) : ∀ c ∈ Nat.toDigits 10 n, c.isDigit :=
  fun _ => Nat.isDigit_of_mem_toDigits (by decide) (by decide)

theorem ofDigits_toDigits (n : Nat) : Number.ofDigits (Nat.toDigits 10 n) = n :=
  Nat.ofDigitChars_toDigits (by decide) (by decide)

theorem toDigits_head {n : Nat} (hn : 0 < n) : (Nat.toDigits 10 n).head? ≠ some '0' := by
  induction n using Nat.strongRecOn with
  | _ n ih =>
    by_cases h : 10 ≤ n
    · rw [Nat.toDigits_of_base_le (by decide) h, List.head?_append_of_ne_nil _ Nat.toDigits_ne_nil]
      exact ih (n / 10) (by omega) (by omega)
    · have hdigit : ∀ n < 10, 0 < n → (Nat.toDigits 10 n).head? ≠ some '0' := by decide
      exact hdigit n (by omega) hn

theorem ofInt_canonical (n : Int) : (ofInt n).Canonical where
  whole := isDigit_toDigits _
  given := Nat.toDigits_ne_nil
  leading h := by
    rcases Nat.eq_zero_or_pos n.natAbs with hz | hp
    · simp [ofInt, hz]
    · exact absurd h (toDigits_head hp)
  fraction := by simp [ofInt]

def writeFraction (digits : List Char) : List Char :=
  if digits.isEmpty then [] else '.' :: digits

def writeExponent : Option Int → List Char
  | none => []
  | some n => 'e' :: ((if n < 0 then ['-'] else []) ++ Nat.toDigits 10 n.natAbs)

theorem write_parts (l : Literal) : l.write = (if l.negative then ['-'] else []) ++
    (l.whole ++ (writeFraction l.fraction ++ writeExponent l.exponent)) := by
  obtain ⟨_, _, _, exponent⟩ := l
  cases exponent <;> simp only [write, writeFraction, writeExponent, List.append_assoc]

theorem takeSign_digits {digits rest : List Char} (hd : ∀ c ∈ digits, c.isDigit)
    (hne : digits ≠ []) : Number.takeSign (digits ++ rest) = (false, digits ++ rest) := by
  obtain ⟨c, more, rfl⟩ := List.exists_cons_of_ne_nil hne
  have hc : c.isDigit := hd c List.mem_cons_self
  unfold Number.takeSign
  split
  · simp_all
  · simp_all
  · rfl

theorem signed_natAbs (n : Int) : (if n < 0 then -(n.natAbs : Int) else n.natAbs) = n := by
  split <;> omega

theorem scanExponent_write (e : Option Int) {rest : List Char} (hr : Stops rest) :
    scanExponent (writeExponent e ++ rest) = some (e, rest) := by
  cases e with
  | none =>
    cases rest with
    | nil => rfl
    | cons c rest =>
      obtain ⟨_, _, he, hE⟩ := hr c rfl
      simp [writeExponent, scanExponent, he, hE]
  | some n =>
    have hd := isDigit_toDigits n.natAbs
    have hr' : ∀ c ∈ rest.head?, ¬ c.isDigit := fun c hc => (hr c hc).1
    have hsign : Number.takeSign
        ((if n < 0 then ['-'] else []) ++ Nat.toDigits 10 n.natAbs ++ rest) =
        (decide (n < 0), Nat.toDigits 10 n.natAbs ++ rest) := by
      by_cases hn : n < 0
      · simp [hn, Number.takeSign]
      · simpa [hn] using takeSign_digits hd Nat.toDigits_ne_nil
    have hmark : ('e' == 'e' || 'e' == 'E') = true := rfl
    have hgiven : (Nat.toDigits 10 n.natAbs).isEmpty = false :=
      List.isEmpty_eq_false_iff.mpr Nat.toDigits_ne_nil
    simp only [writeExponent, List.cons_append, scanExponent, hsign, Text.takeWhile_span hd hr',
      Text.dropWhile_span hd hr', ofDigits_toDigits, hmark, hgiven, decide_eq_true_eq, if_true,
      Bool.false_eq_true, if_false, signed_natAbs]

theorem scanFraction_write {digits rest : List Char} (hd : ∀ c ∈ digits, c.isDigit)
    (hr : ∀ c ∈ rest.head?, ¬ c.isDigit ∧ c ≠ '.') :
    scanFraction (writeFraction digits ++ rest) = some (digits, rest) := by
  have hr' : ∀ c ∈ rest.head?, ¬ c.isDigit := fun c hc => (hr c hc).1
  cases digits with
  | nil =>
    cases rest with
    | nil => rfl
    | cons c rest =>
      have hc : c ≠ '.' := (hr c rfl).2
      simp [writeFraction, scanFraction, hc]
  | cons d digits =>
    have htake : (d :: (digits ++ rest)).takeWhile Char.isDigit = d :: digits :=
      Text.takeWhile_span hd hr'
    have hdrop : (d :: (digits ++ rest)).dropWhile Char.isDigit = rest := Text.dropWhile_span hd hr'
    simp [writeFraction, scanFraction, htake, hdrop]

theorem head_writeExponent (e : Option Int) {rest : List Char} (hr : Stops rest) :
    ∀ c ∈ (writeExponent e ++ rest).head?, ¬ c.isDigit ∧ c ≠ '.' := by
  cases e with
  | none => exact fun c hc => ⟨(hr c hc).1, (hr c hc).2.1⟩
  | some n => simp [writeExponent]

theorem head_writeFraction (digits : List Char) {rest : List Char}
    (hr : ∀ c ∈ rest.head?, ¬ c.isDigit) :
    ∀ c ∈ (writeFraction digits ++ rest).head?, ¬ c.isDigit := by
  cases digits with
  | nil => exact hr
  | cons => simp [writeFraction]

theorem scan_write {l : Literal} (hl : l.Canonical) {rest : List Char} (hr : Stops rest) :
    scan l.negative (l.whole ++ (writeFraction l.fraction ++ (writeExponent l.exponent ++ rest))) =
      some (l, rest) := by
  have he := head_writeExponent l.exponent hr
  have hf := head_writeFraction l.fraction fun c hc => (he c hc).1
  have hlead : ¬ (l.whole.head? = some '0' ∧ 1 < l.whole.length) := fun h => by
    have hone := hl.leading h.1
    omega
  have hsome : ¬ l.whole.isEmpty := by simpa using hl.given
  simp only [scan, Text.takeWhile_span hl.whole hf, Text.dropWhile_span hl.whole hf,
    scanFraction_write hl.fraction he]
  simp [hsome, hlead, scanExponent_write l.exponent hr]

end Literal

section Strings

theorem escape_cases (c : Char) :
    (∃ e, escape c = ['\\', e] ∧ escaped? e = some c) ∨
    (c.toNat < 0x20 ∧ escape c = ['\\', 'u', '0', '0'] ++ hexByte c.toNat) ∨
    (escape c = [c] ∧ c ≠ '"' ∧ c ≠ '\\' ∧ 0x20 ≤ c.toNat) := by
  unfold escape
  split_ifs with hquote hbackslash _ _ _ _ _ hcontrol
  iterate 7 exact Or.inl ⟨_, rfl, by subst c; rfl⟩
  · exact Or.inr (Or.inl ⟨hcontrol, rfl⟩)
  · exact Or.inr (Or.inr ⟨rfl, hquote, hbackslash, by omega⟩)

theorem codeUnit_hexByte : ∀ n < 0x20,
    codeUnit? '0' '0' (Nat.digitChar (n / 16)) (Nat.digitChar (n % 16)) = some n := by
  decide

theorem escape_scans (c : Char) : ∃ piece : Piece,
    (∀ rest, scanString (escape c ++ rest) =
      (scanString rest).map fun (pieces, after) => (piece :: pieces, after)) ∧
    ∀ pieces, Piece.join none (piece :: pieces) = (Piece.join none pieces).map (c :: ·) := by
  rcases escape_cases c with ⟨e, he, hc⟩ | ⟨hc, he⟩ | ⟨he, hquote, hbackslash, hc⟩
  · have hu : e ≠ 'u' := by
      rintro rfl
      simp [escaped?] at hc
    refine ⟨.char c, fun rest => ?_, fun _ => rfl⟩
    rw [he, List.cons_append, List.singleton_append, scanString]
    · simp [hc]
    · simp [hu]
  · refine ⟨.unit c.toNat, fun rest => ?_, fun pieces => ?_⟩
    · rw [he]
      simp [hexByte, scanString, codeUnit_hexByte c.toNat hc]
    · have hlead : Piece.isLead c.toNat = false := by
        simp only [Piece.isLead, Bool.and_eq_false_iff, decide_eq_false_iff_not]
        omega
      have htrail : Piece.isTrail c.toNat = false := by
        simp only [Piece.isTrail, Bool.and_eq_false_iff, decide_eq_false_iff_not]
        omega
      simp [Piece.join, hlead, htrail, Char.ofNat_toNat]
  · have hlow : ¬ c.toNat < 0x20 := by omega
    refine ⟨.char c, fun rest => ?_, fun _ => rfl⟩
    rw [he, List.singleton_append, scanString, if_neg hlow]
    · exact hquote
    · simp [hbackslash]
    · simp [hbackslash]

theorem scanString_write (chars rest : List Char) : ∃ pieces,
    scanString (chars.flatMap escape ++ '"' :: rest) = some (pieces, rest) ∧
      Piece.join none pieces = some chars := by
  induction chars with
  | nil => exact ⟨[], by simp [scanString], rfl⟩
  | cons c chars ih =>
    obtain ⟨pieces, hs, hj⟩ := ih
    obtain ⟨piece, hscan, hjoin⟩ := escape_scans c
    refine ⟨piece :: pieces, ?_, ?_⟩
    · rw [List.flatMap_cons, List.append_assoc, hscan, hs]
      rfl
    · rw [hjoin, hj]
      rfl

theorem scanString_quote (text : Option String) (rest : List Char) : ∃ pieces after,
    quote text ++ rest = '"' :: after ∧ scanString after = some (pieces, rest) ∧
      Piece.text pieces = text := by
  cases text with
  | none => exact ⟨[.unit 0xD800], _, rfl, by simp [scanString, codeUnit?, hexDigit?], rfl⟩
  | some s =>
    obtain ⟨pieces, hs, hj⟩ := scanString_write s.toList rest
    refine ⟨pieces, s.toList.flatMap escape ++ '"' :: rest, by simp [quote], hs, ?_⟩
    simp [Piece.text, hj]

end Strings

theorem tokens_cons {c : Char} {rest after : List Char} {token : Token} (hc : isSpace c = false)
    (h : scanToken c rest = some (token, after)) :
    tokens (c :: rest) = (tokens after).map (token :: ·) := by
  rw [tokens]
  simp only [hc, Bool.false_eq_true, if_false]
  split <;> simp_all

theorem isSpace_digit {c : Char} (hc : c.isDigit) : isSpace c = false := by
  simp only [isSpace, Bool.or_eq_false_iff, beq_eq_false_iff_ne]
  refine ⟨⟨⟨?_, ?_⟩, ?_⟩, ?_⟩ <;> (rintro rfl; simp at hc)

theorem tokens_number {l : Literal} (hl : l.Canonical) {rest : List Char}
    (hr : Literal.Stops rest) : tokens (l.write ++ rest) = (tokens rest).map (.number l :: ·) := by
  have hscan := Literal.scan_write hl hr
  rw [l.write_parts]
  simp only [List.append_assoc]
  cases hn : l.negative with
  | true =>
    rw [hn] at hscan
    refine tokens_cons (by decide) ?_
    simp [scanToken, hscan]
  | false =>
    obtain ⟨d, whole, hw⟩ := List.exists_cons_of_ne_nil hl.given
    have hd : d.isDigit := hl.whole d (by simp [hw])
    rw [hn, hw] at hscan
    rw [hw]
    refine tokens_cons (isSpace_digit hd) ?_
    unfold scanToken
    split <;> simp_all

theorem tokens_write (token : Token) {rest : List Char} (h : ∀ l, token ≠ .number l) :
    tokens (token.write ++ rest) = (tokens rest).map (token :: ·) := by
  cases token with
  | number l => exact absurd rfl (h l)
  | string text =>
    obtain ⟨pieces, after, hq, hs, ht⟩ := scanString_quote text rest
    rw [Token.write, hq]
    refine tokens_cons (by decide) ?_
    simp [scanToken, hs, ht]
  | bool b => cases b <;> exact tokens_cons (by decide) rfl
  | _ => exact tokens_cons (by decide) rfl

/-- The tokens are read back from their text, if no number goes on behind it. -/
def ReadBack (ts : List Token) : Prop :=
  ∀ rest, Literal.Stops rest →
    tokens (ts.flatMap Token.write ++ rest) = (tokens rest).map (ts ++ ·)

namespace ReadBack

theorem nil : ReadBack [] := by
  intro rest _
  simp

theorem number {l : Literal} (hl : l.Canonical) : ReadBack [.number l] := by
  intro rest hr
  simpa [Token.write] using tokens_number hl hr

theorem cons {token : Token} {ts : List Token} (ht : ∀ l, token ≠ .number l) (h : ReadBack ts) :
    ReadBack (token :: ts) := by
  intro rest hr
  rw [List.flatMap_cons, List.append_assoc, tokens_write token ht, h rest hr, Option.map_map]
  rfl

theorem append {token : Token} {ts us : List Token}
    (ht : token = .comma ∨ token = .endArray ∨ token = .endObject) (h : ReadBack ts)
    (h' : ReadBack us) : ReadBack (ts ++ token :: us) := by
  intro rest hr
  have hnumber : ∀ l, token ≠ .number l := by rcases ht with rfl | rfl | rfl <;> simp
  have hstops : Literal.Stops ((token :: us).flatMap Token.write ++ rest) := by
    rcases ht with rfl | rfl | rfl <;> simp [Literal.Stops, Token.write]
  rw [List.flatMap_append, List.append_assoc, h _ hstops, h'.cons hnumber rest hr, Option.map_map]
  simp [Function.comp_def]

end ReadBack
end Storyline.Json

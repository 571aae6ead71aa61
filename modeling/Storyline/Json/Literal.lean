import Storyline.Number.Numeral

/-! # JSON numbers

A number literal is kept digit by digit: whether it is an integer, and whether a double can hold it,
is decided by what is written.
-/
namespace Storyline.Json

open Number (Binary64 ofDigits takeSign)

/-- A number as written. A fraction or an exponent, where there is one, has digits. -/
structure Literal where
  negative : Bool
  whole : List Char
  fraction : List Char
  exponent : Option Int
  deriving DecidableEq

namespace Literal

/-- The integer of a literal without fraction and exponent; `-0` is none. -/
def integer? (l : Literal) : Option Int :=
  let size := ofDigits l.whole
  if !l.fraction.isEmpty || l.exponent.isSome || (l.negative && size == 0) then none
  else some (if l.negative then -size else size)

def ofInt (n : Int) : Literal := ⟨n < 0, Nat.toDigits 10 n.natAbs, [], none⟩

/-- Takes digits into a 64-bit significand until one does not fit; also counts those taken. -/
def significand (start : Nat) : List Char → Nat × Nat
  | [] => (start, 0)
  | d :: rest =>
    let next := 10 * start + (d.toNat - '0'.toNat)
    if next < UInt64.size then
      let (value, taken) := significand next rest
      (value, taken + 1)
    else (start, 0)

/-- Whether the literal can be held as a double: its significand times its power of ten, both
rounded first, is finite. -/
def inRange (l : Literal) : Bool :=
  let (start, whole) := significand 0 l.whole
  let (value, fraction) := significand start l.fraction
  let exponent : Int := l.whole.length - whole - fraction + l.exponent.getD 0
  value == 0 || exponent ≤ 0 ||
    exponent ≤ 308 && ((Binary64.ofNat value).mul (.ofDecimal false 1 exponent)).isFinite

def write (l : Literal) : List Char :=
  (if l.negative then ['-'] else []) ++ l.whole ++
    (if l.fraction.isEmpty then [] else '.' :: l.fraction) ++
    match l.exponent with
    | none => []
    | some n => 'e' :: ((if n < 0 then ['-'] else []) ++ Nat.toDigits 10 n.natAbs)

def scanFraction : List Char → Option (List Char × List Char)
  | '.' :: rest =>
    if (rest.takeWhile Char.isDigit).isEmpty then none
    else some (rest.takeWhile Char.isDigit, rest.dropWhile Char.isDigit)
  | rest => some ([], rest)

def scanExponent : List Char → Option (Option Int × List Char)
  | [] => some (none, [])
  | mark :: rest =>
    if mark == 'e' || mark == 'E' then
      let (negative, rest) := takeSign rest
      let digits := rest.takeWhile Char.isDigit
      if digits.isEmpty then none
      else
        let size : Int := ofDigits digits
        some (some (if negative then -size else size), rest.dropWhile Char.isDigit)
    else some (none, mark :: rest)

/-- A number without its minus sign. No zero stands before other digits. -/
def scan (negative : Bool) (text : List Char) : Option (Literal × List Char) :=
  let whole := text.takeWhile Char.isDigit
  if whole.isEmpty || (whole.head? == some '0' && 1 < whole.length) then none
  else
    (scanFraction (text.dropWhile Char.isDigit)).bind fun (fraction, rest) =>
      (scanExponent rest).map fun (exponent, rest) =>
        (⟨negative, whole, fraction, exponent⟩, rest)

private theorem length_of_scanFraction {text digits rest : List Char}
    (h : scanFraction text = some (digits, rest)) : rest.length ≤ text.length := by
  unfold scanFraction at h
  split at h
  · split at h
    · simp at h
    · simp only [Option.some.injEq, Prod.mk.injEq] at h
      rw [← h.2, List.length_cons]
      exact Nat.le_succ_of_le (List.dropWhile_sublist _).length_le
  · simp_all

private theorem length_takeSign (text : List Char) :
    (takeSign text).2.length ≤ text.length := by
  unfold takeSign
  split <;> simp

private theorem length_of_scanExponent {text rest : List Char} {exponent : Option Int}
    (h : scanExponent text = some (exponent, rest)) : rest.length ≤ text.length := by
  unfold scanExponent at h
  split at h
  · simp_all
  · next mark r =>
    have hs := length_takeSign r
    have hd : ((takeSign r).2.dropWhile Char.isDigit).length ≤ (takeSign r).2.length :=
      (List.dropWhile_sublist _).length_le
    split at h
    · dsimp only at h
      split at h
      · simp at h
      · simp only [Option.some.injEq, Prod.mk.injEq] at h
        rw [← h.2, List.length_cons]
        omega
    · simp only [Option.some.injEq, Prod.mk.injEq] at h
      exact Nat.le_of_eq (congrArg List.length h.2.symm)

theorem length_of_scan {negative : Bool} {text rest : List Char} {l : Literal}
    (h : scan negative text = some (l, rest)) :
    rest.length ≤ (text.dropWhile Char.isDigit).length := by
  unfold scan at h
  dsimp only at h
  split at h
  · simp at h
  · simp only [Option.bind_eq_some_iff, Option.map_eq_some_iff, Prod.mk.injEq] at h
    obtain ⟨⟨_, _⟩, hf, ⟨_, _⟩, he, -, rfl⟩ := h
    exact Nat.le_trans (length_of_scanExponent he) (length_of_scanFraction hf)

end Literal
end Storyline.Json

import Storyline.Number.Rounding

/-! # Double precision numbers

Finite numbers are counted in units of 2⁻¹⁰⁷⁴, the distance of the smallest ones, so every finite
number is a sign and a grid point below the limit. Each operation is the exact result, rounded once.
-/
namespace Storyline.Number

/-- The units in 1. -/
def unitsPerOne : Nat := Nat.pow 2 1074

/-- The least number of units that is too large for a finite number. -/
def unitLimit : Nat := Nat.pow 2 2098

structure Magnitude where
  units : Nat
  bounded : units < unitLimit
  onGrid : spacing units ∣ units
  deriving DecidableEq

/-- A double; all NaNs are one value. -/
inductive Binary64 where
  | finite (negative : Bool) (size : Magnitude)
  | infinite (negative : Bool)
  | nan
  deriving DecidableEq

namespace Binary64

/-- The double nearest to `num / den` units, infinite from half a step below the limit on. -/
def round (negative : Bool) (num den : Nat) : Binary64 :=
  if h : toGrid num den < unitLimit then
    .finite negative ⟨toGrid num den, h, spacing_dvd_toGrid num den⟩
  else .infinite negative

def zero (negative : Bool) : Binary64 := round negative 0 1

def ofNat (n : Nat) : Binary64 := round false (n * unitsPerOne) 1

def neg : Binary64 → Binary64
  | .finite negative size => .finite (!negative) size
  | .infinite negative => .infinite (!negative)
  | .nan => .nan

/-- Opposite numbers of one size add up to the positive zero. -/
def add : Binary64 → Binary64 → Binary64
  | .nan, _ => .nan
  | _, .nan => .nan
  | .infinite s, .infinite t => if s = t then .infinite s else .nan
  | .infinite s, .finite .. => .infinite s
  | .finite .., .infinite t => .infinite t
  | .finite s a, .finite t b =>
    if s = t then round s (a.units + b.units) 1
    else if a.units = b.units then zero false
    else if b.units < a.units then round s (a.units - b.units) 1
    else round t (b.units - a.units) 1

def sub (x y : Binary64) : Binary64 := x.add y.neg

def mul : Binary64 → Binary64 → Binary64
  | .nan, _ => .nan
  | _, .nan => .nan
  | .infinite s, .infinite t => .infinite (s ^^ t)
  | .infinite s, .finite t b => if b.units = 0 then .nan else .infinite (s ^^ t)
  | .finite s a, .infinite t => if a.units = 0 then .nan else .infinite (s ^^ t)
  | .finite s a, .finite t b => round (s ^^ t) (a.units * b.units) unitsPerOne

def div : Binary64 → Binary64 → Binary64
  | .nan, _ => .nan
  | _, .nan => .nan
  | .infinite _, .infinite _ => .nan
  | .infinite s, .finite t _ => .infinite (s ^^ t)
  | .finite s _, .infinite t => zero (s ^^ t)
  | .finite s a, .finite t b =>
    if b.units = 0 then
      if a.units = 0 then .nan else .infinite (s ^^ t)
    else round (s ^^ t) (a.units * unitsPerOne) b.units

/-- The place on the number line, with the two zeros at one place; NaN has none. -/
def place : Binary64 → Option Int
  | .finite negative size => some (if negative then -size.units else size.units)
  | .infinite negative => some (if negative then -unitLimit else unitLimit)
  | .nan => none

/-- Every comparison with NaN fails. -/
def lt (x y : Binary64) : Bool :=
  match x.place, y.place with
  | some a, some b => a < b
  | _, _ => false

def le (x y : Binary64) : Bool :=
  match x.place, y.place with
  | some a, some b => a ≤ b
  | _, _ => false

def isFinite : Binary64 → Bool
  | .finite .. => true
  | _ => false

/-- The 64 bits of the interchange format: sign, exponent and fraction. NaN has many. -/
def bits? : Binary64 → Option UInt64
  | .finite negative size =>
    let drop := size.units.log2 - 52
    some (UInt64.ofNat (sign negative + drop * Nat.pow 2 52 + size.units / Nat.pow 2 drop))
  | .infinite negative => some (UInt64.ofNat (sign negative + 2047 * Nat.pow 2 52))
  | .nan => none
where
  sign (negative : Bool) : Nat := if negative then Nat.pow 2 63 else 0

/-- `coefficient * 10 ^ exponent`, rounded. Exponents that lead far out of range are settled
without writing out the power of ten. -/
def ofDecimal (negative : Bool) (coefficient : Nat) (exponent : Int) : Binary64 :=
  if coefficient = 0 then zero negative
  else if 400 < exponent then .infinite negative
  else if exponent < 0 ∧ coefficient.log2 + 1100 < 3 * exponent.natAbs then zero negative
  else if exponent < 0 then
    round negative (coefficient * unitsPerOne) (Nat.pow 10 exponent.natAbs)
  else round negative (coefficient * Nat.pow 10 exponent.natAbs * unitsPerOne) 1

end Binary64
end Storyline.Number

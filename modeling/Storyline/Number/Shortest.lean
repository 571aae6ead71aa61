import Storyline.Number.Binary64

/-! # Shortest decimals

A double is written with the fewest significant digits that read back as the same double. Of the
decimals with that many digits the nearest is taken, and the larger one if two are equally near.
No exponent is written: zeros fill the places up to the point.
-/
namespace Storyline.Number

/-- The steps of 10⁻¹⁰⁷⁴ in one unit of 2⁻¹⁰⁷⁴: every double is a whole number of such steps. -/
def decimalScale : Nat := Nat.pow 5 1074

/-- Whether a number of steps of 10⁻¹⁰⁷⁴ rounds to this many units. -/
def readsBack (units steps : Nat) : Bool := toGrid steps decimalScale == units

/-- Of the two neighbours of `exact` on the grid of the given step, the one that reads back as
`units`; of two the nearer, and the upper one when both are as near. A grid whose step is larger
than the number has none. -/
def neighbour? (units exact step : Nat) : Option Nat :=
  let below := exact / step
  if below = 0 then none
  else
    match readsBack units (below * step), readsBack units ((below + 1) * step) with
    | true, true => some (if 2 * (exact % step) < step then below else below + 1)
    | true, false => some below
    | false, true => some (below + 1)
    | false, false => none

/-- The first neighbour that reads back, from the grid of step `10 ^ places` down to finer ones,
and the places of its grid. -/
def shortestFrom (units exact : Nat) : Nat → Nat × Nat
  | 0 => (exact, 0)
  | places + 1 =>
    match neighbour? units exact (Nat.pow 10 (places + 1)) with
    | some digits => (digits, places + 1)
    | none => shortestFrom units exact places

/-- The places of a grid whose step is at least a tenth of the number, and little more. It holds
because `2 ^ 93 < 10 ^ 28`. -/
def coarsest (n : Nat) : Nat := n.log2 * 28 / 93 + 1

/-- The digits found on a grid, and the power of ten that the last of them counts. On the coarsest
grid the neighbour above 9 is 10, whose zero is dropped. -/
def dropZero : Nat × Nat → Nat × Int
  | (digits, places) =>
    if digits % 10 = 0 then (digits / 10, (places : Int) - 1073)
    else (digits, (places : Int) - 1074)

/-- The shortest decimal that reads back: its significant digits, and the power of ten that the
last of them counts. -/
def shortest (units : Nat) : Nat × Int :=
  let exact := units * decimalScale
  dropZero (shortestFrom units exact (coarsest exact))

def layout (digits : List Char) (exponent : Int) : List Char :=
  if 0 ≤ exponent then digits ++ List.replicate exponent.natAbs '0'
  else
    let places := exponent.natAbs
    if places < digits.length then
      digits.take (digits.length - places) ++ '.' :: digits.drop (digits.length - places)
    else '0' :: '.' :: (List.replicate (places - digits.length) '0' ++ digits)

def writeUnits (units : Nat) : List Char :=
  if units = 0 then ['0']
  else
    let (digits, exponent) := shortest units
    layout (Nat.toDigits 10 digits) exponent

def Binary64.write : Binary64 → String
  | .finite negative size => String.ofList (signed negative (writeUnits size.units))
  | .infinite negative => String.ofList (signed negative ['i', 'n', 'f'])
  | .nan => "NaN"
where
  signed (negative : Bool) (text : List Char) : List Char :=
    if negative then '-' :: text else text

end Storyline.Number

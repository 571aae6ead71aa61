import Storyline.Number.Binary64
import Storyline.Text.Blank

/-! # Numerals

Numbers written as text: an optional sign, then one of the words `inf`, `infinity` and `nan` in any
letter case, or decimal digits with an optional point and an optional exponent. Digits are needed
on one side of the point and after an exponent mark. Blanks around the numeral are ignored.
-/
namespace Storyline.Number

def ofDigits (digits : List Char) : Nat := Nat.ofDigitChars 10 digits 0

/-- An unsigned decimal: the coefficient times a power of ten. -/
structure Decimal where
  coefficient : Nat
  exponent : Int
  deriving DecidableEq

/-- Whether there is a minus sign, and what follows the sign, if there is one. -/
def takeSign : List Char → Bool × List Char
  | '-' :: rest => (true, rest)
  | '+' :: rest => (false, rest)
  | text => (false, text)

/-- The exponent that makes up the whole text; no text is the exponent 0. -/
def readExponent : List Char → Option Int
  | [] => some 0
  | mark :: rest =>
    let (negative, digits) := takeSign rest
    if (mark == 'e' || mark == 'E') && !digits.isEmpty && digits.all Char.isDigit then
      some (if negative then -ofDigits digits else ofDigits digits)
    else none

def Decimal.read (text : List Char) : Option Decimal :=
  let whole := text.takeWhile Char.isDigit
  match text.dropWhile Char.isDigit with
  | '.' :: rest =>
    let fraction := rest.takeWhile Char.isDigit
    if whole.isEmpty && fraction.isEmpty then none
    else (readExponent (rest.dropWhile Char.isDigit)).map fun exponent =>
      ⟨ofDigits (whole ++ fraction), exponent - fraction.length⟩
  | rest =>
    if whole.isEmpty then none
    else (readExponent rest).map fun exponent => ⟨ofDigits whole, exponent⟩

def readUnsigned (negative : Bool) (text : List Char) : Option Binary64 :=
  let word := text.map Char.toLower
  if word = ['i', 'n', 'f'] ∨ word = ['i', 'n', 'f', 'i', 'n', 'i', 't', 'y'] then
    some (.infinite negative)
  else if word = ['n', 'a', 'n'] then some .nan
  else (Decimal.read text).map fun d => .ofDecimal negative d.coefficient d.exponent

/-- The double nearest to the number that the text writes, if it writes one. -/
def Binary64.read (text : String) : Option Binary64 :=
  let (negative, rest) := takeSign (Text.trim text.toList)
  readUnsigned negative rest

end Storyline.Number

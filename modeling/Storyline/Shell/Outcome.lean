import Storyline.Text.Blank

/-! # Program outcomes

What the command line programs read and what they leave behind.
-/
namespace Storyline.Shell

inductive File where
  | missing
  | unreadable
  | text (content : String)

structure Outcome where
  exit : UInt32
  output : String
  errors : String
  deriving DecidableEq

def paragraph (lines : List String) : String := String.join (lines.map (· ++ "\n"))

def Outcome.failure (error : String) : Outcome := ⟨1, "", paragraph [error]⟩

/-- An unsigned 64-bit number: decimal digits after an optional plus sign. -/
def unsigned? (text : List Char) : Option UInt64 :=
  let digits := match text with
    | '+' :: rest => rest
    | text => text
  let n := Nat.ofDigitChars 10 digits 0
  if !digits.isEmpty && digits.all Char.isDigit && n < UInt64.size then some (UInt64.ofNat n)
  else none

/-- The lines of a text; a line end at the end of the text starts no new line. -/
def lines : List Char → List (List Char)
  | [] => []
  | c :: rest =>
    if c = '\n' then [] :: lines rest
    else
      match lines rest with
      | [] => [[c]]
      | line :: more => (c :: line) :: more

end Storyline.Shell

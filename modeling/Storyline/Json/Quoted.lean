/-! # JSON strings

A string literal is a row of characters and UTF-16 code units, which are joined to characters in a
second step. Writing escapes no more than it has to.
-/
namespace Storyline.Json

/-- A part of a string literal. A `\u` escape writes a code unit. -/
inductive Piece where
  | char (c : Char)
  | unit (n : Nat)
  deriving DecidableEq

namespace Piece

def isLead (n : Nat) : Bool := 0xD800 ≤ n && n < 0xDC00

def isTrail (n : Nat) : Bool := 0xDC00 ≤ n && n < 0xE000

/-- The characters of the pieces, after an open leading surrogate; none if a surrogate has no
partner. -/
def join : Option Nat → List Piece → Option (List Char)
  | none, [] => some []
  | some _, [] => none
  | some lead, .unit n :: rest =>
    if isTrail n then
      (join none rest).map (Char.ofNat (0x10000 + (lead - 0xD800) * 0x400 + (n - 0xDC00)) :: ·)
    else none
  | some _, .char _ :: _ => none
  | none, .char c :: rest => (join none rest).map (c :: ·)
  | none, .unit n :: rest =>
    if isLead n then join (some n) rest
    else if isTrail n then none
    else (join none rest).map (Char.ofNat n :: ·)

def text (pieces : List Piece) : Option String := (join none pieces).map String.ofList

end Piece

def hexDigit? (c : Char) : Option Nat :=
  if c.isDigit then some (c.toNat - '0'.toNat)
  else if 'a' ≤ c ∧ c ≤ 'f' then some (c.toNat - 'a'.toNat + 10)
  else if 'A' ≤ c ∧ c ≤ 'F' then some (c.toNat - 'A'.toNat + 10)
  else none

def codeUnit? (a b c d : Char) : Option Nat := do
  return (((← hexDigit? a) * 16 + (← hexDigit? b)) * 16 + (← hexDigit? c)) * 16 + (← hexDigit? d)

def escaped? : Char → Option Char
  | '"' => some '"'
  | '\\' => some '\\'
  | '/' => some '/'
  | 'b' => some '\x08'
  | 'f' => some '\x0c'
  | 'n' => some '\n'
  | 'r' => some '\r'
  | 't' => some '\t'
  | _ => none

def scanString : List Char → Option (List Piece × List Char)
  | [] => none
  | '"' :: rest => some ([], rest)
  | '\\' :: 'u' :: a :: b :: c :: d :: rest =>
    (codeUnit? a b c d).bind fun n =>
      (scanString rest).map fun (pieces, after) => (.unit n :: pieces, after)
  | '\\' :: e :: rest =>
    (escaped? e).bind fun c =>
      (scanString rest).map fun (pieces, after) => (.char c :: pieces, after)
  | c :: rest =>
    if c.toNat < 0x20 then none
    else (scanString rest).map fun (pieces, after) => (.char c :: pieces, after)

theorem length_of_scanString {text : List Char} {pieces : List Piece} {rest : List Char}
    (h : scanString text = some (pieces, rest)) : rest.length ≤ text.length := by
  fun_induction scanString text generalizing pieces with
  | case1 => simp at h
  | case2 => simp_all
  | case3 a b c d r ih =>
    simp only [Option.bind_eq_some_iff, Option.map_eq_some_iff, Prod.mk.injEq] at h
    obtain ⟨_, -, ⟨_, _⟩, hr, -, rfl⟩ := h
    have := ih hr
    simp only [List.length_cons] at this ⊢
    omega
  | case4 e r _ ih =>
    simp only [Option.bind_eq_some_iff, Option.map_eq_some_iff, Prod.mk.injEq] at h
    obtain ⟨_, -, ⟨_, _⟩, hr, -, rfl⟩ := h
    have := ih hr
    simp only [List.length_cons] at this ⊢
    omega
  | case5 => simp at h
  | case6 c r _ _ _ _ ih =>
    simp only [Option.map_eq_some_iff, Prod.mk.injEq] at h
    obtain ⟨⟨_, _⟩, hr, -, rfl⟩ := h
    have := ih hr
    simp only [List.length_cons] at this ⊢
    omega

def hexByte (n : Nat) : List Char := [Nat.digitChar (n / 16), Nat.digitChar (n % 16)]

/-- How a character is written in a string literal: quote, backslash and control characters are
escaped, everything else stands for itself. -/
def escape (c : Char) : List Char :=
  if c = '"' then ['\\', '"']
  else if c = '\\' then ['\\', '\\']
  else if c = '\x08' then ['\\', 'b']
  else if c = '\t' then ['\\', 't']
  else if c = '\n' then ['\\', 'n']
  else if c = '\x0c' then ['\\', 'f']
  else if c = '\r' then ['\\', 'r']
  else if c.toNat < 0x20 then ['\\', 'u', '0', '0'] ++ hexByte c.toNat
  else [c]

/-- A string without a text is written as a single surrogate. -/
def quote : Option String → List Char
  | some text => '"' :: (text.toList.flatMap escape ++ ['"'])
  | none => ['"', '\\', 'u', 'd', '8', '0', '0', '"']

end Storyline.Json

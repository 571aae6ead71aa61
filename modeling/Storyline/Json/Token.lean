import Storyline.Json.Literal
import Storyline.Json.Quoted

/-! # JSON tokens

Between tokens stand only spaces, tabs, line feeds and carriage returns.
-/
namespace Storyline.Json

inductive Token where
  | beginObject
  | endObject
  | beginArray
  | endArray
  | colon
  | comma
  | null
  | bool (b : Bool)
  | number (literal : Literal)
  | string (text : Option String)
  deriving DecidableEq

def scanToken (c : Char) (rest : List Char) : Option (Token × List Char) :=
  match c, rest with
  | '{', rest => some (.beginObject, rest)
  | '}', rest => some (.endObject, rest)
  | '[', rest => some (.beginArray, rest)
  | ']', rest => some (.endArray, rest)
  | ':', rest => some (.colon, rest)
  | ',', rest => some (.comma, rest)
  | 'n', 'u' :: 'l' :: 'l' :: rest => some (.null, rest)
  | 't', 'r' :: 'u' :: 'e' :: rest => some (.bool true, rest)
  | 'f', 'a' :: 'l' :: 's' :: 'e' :: rest => some (.bool false, rest)
  | '"', rest => (scanString rest).map fun (pieces, rest) => (.string (Piece.text pieces), rest)
  | '-', rest => (Literal.scan true rest).map fun (literal, rest) => (.number literal, rest)
  | c, rest =>
    if c.isDigit then
      (Literal.scan false (c :: rest)).map fun (literal, rest) => (.number literal, rest)
    else none

def isSpace (c : Char) : Bool := c == ' ' || c == '\t' || c == '\n' || c == '\r'

theorem length_of_scanToken {c : Char} {text rest : List Char} {token : Token}
    (h : scanToken c text = some (token, rest)) : rest.length ≤ text.length := by
  unfold scanToken at h
  split at h
  case h_10 =>
    simp only [Option.map_eq_some_iff, Prod.mk.injEq] at h
    obtain ⟨⟨_, _⟩, hr, -, rfl⟩ := h
    exact length_of_scanString hr
  case h_11 =>
    simp only [Option.map_eq_some_iff, Prod.mk.injEq] at h
    obtain ⟨⟨_, _⟩, hr, -, rfl⟩ := h
    exact Nat.le_trans (Literal.length_of_scan hr) (List.dropWhile_sublist _).length_le
  case h_12 =>
    split at h
    · next hc =>
      simp only [Option.map_eq_some_iff, Prod.mk.injEq] at h
      obtain ⟨⟨_, _⟩, hr, -, rfl⟩ := h
      have := Literal.length_of_scan hr
      rw [List.dropWhile_cons_of_pos hc] at this
      exact Nat.le_trans this (List.dropWhile_sublist _).length_le
    · simp at h
  all_goals grind

def tokens (text : List Char) : Option (List Token) :=
  match text with
  | [] => some []
  | c :: rest =>
    if isSpace c then tokens rest
    else
      match _h : scanToken c rest with
      | none => none
      | some (token, after) => (tokens after).map (token :: ·)
termination_by text.length
decreasing_by
  · simp
  · have := length_of_scanToken _h
    simp only [List.length_cons]
    omega

def Token.write : Token → List Char
  | .beginObject => ['{']
  | .endObject => ['}']
  | .beginArray => ['[']
  | .endArray => [']']
  | .colon => [':']
  | .comma => [',']
  | .null => ['n', 'u', 'l', 'l']
  | .bool true => ['t', 'r', 'u', 'e']
  | .bool false => ['f', 'a', 'l', 's', 'e']
  | .number literal => literal.write
  | .string text => quote text

end Storyline.Json

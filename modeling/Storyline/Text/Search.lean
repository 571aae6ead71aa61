/-! # Occurrences in text

A pattern occurs in a text when it is a run of consecutive characters of it. Replacing goes from
left to right and never looks into what it has put in.
-/
namespace Storyline.Text

/-- Whether `pattern` occurs in the text; the empty pattern occurs in every text. -/
def occurs (pattern : List Char) : List Char → Bool
  | [] => pattern.isEmpty
  | c :: rest => pattern.isPrefixOf (c :: rest) || occurs pattern rest

/-- Replaces the leftmost occurrence of `pattern` after the first `skip` characters, which are
dropped, and every later one that does not overlap those before it. -/
def replaceFrom (pattern value : List Char) : Nat → List Char → List Char
  | _, [] => []
  | skip + 1, _ :: rest => replaceFrom pattern value skip rest
  | 0, c :: rest =>
    if pattern.isPrefixOf (c :: rest) then
      value ++ replaceFrom pattern value (pattern.length - 1) rest
    else c :: replaceFrom pattern value 0 rest

/-- Replaces every leftmost, non-overlapping occurrence of `pattern`. An empty pattern stands for
nothing and is never replaced. -/
def replaceAll (pattern value text : List Char) : List Char :=
  if pattern.isEmpty then text else replaceFrom pattern value 0 text

end Storyline.Text

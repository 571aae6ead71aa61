import Storyline.Json.Value

/-! # Records

A record with named fields is written as an object, or as an array of its fields in their declared
order. Each field may be given once; what else an object holds is skipped.
-/
namespace Storyline.Json

def namedMembers : List (Option String × Value) → Option (List (String × Value))
  | [] => some []
  | (key, v) :: rest =>
    key.bind fun name => (namedMembers rest).map ((name, v) :: ·)

/-- The value of the field `name`: `some none` if it is absent, `none` if it is repeated. -/
def field? (members : List (String × Value)) (name : String) : Option (Option Value) :=
  match members.filter (·.1 == name) with
  | [] => some none
  | [(_, v)] => some (some v)
  | _ => none

def Value.record? (names : List String) : Value → Option (List (Option Value))
  | .object members => (namedMembers members).bind fun named => names.mapM (field? named)
  | .array items =>
    if items.length ≤ names.length then
      some (items.map some ++ List.replicate (names.length - items.length) none)
    else none
  | _ => none

end Storyline.Json

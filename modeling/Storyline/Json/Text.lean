import Storyline.Json.Value

/-! # JSON text

A value is read from its tokens in one pass that keeps the arrays and objects still open on a
stack, so nesting is not limited. The compact text of a value has no space between tokens.
-/
namespace Storyline.Json

/-- An array or object that is still open, with the parts it has so far, the latest first. An
object waits for the value of `key`. -/
inductive Frame where
  | array (items : List Value)
  | object (members : List (Option String × Value)) (key : Option String)

/-- What may come next, inside the open frames, the innermost first. -/
inductive Stage where
  | value (outer : List Frame)
  | firstItem (outer : List Frame)
  | firstKey (outer : List Frame)
  | nextKey (members : List (Option String × Value)) (outer : List Frame)
  | colon (members : List (Option String × Value)) (key : Option String) (outer : List Frame)
  | afterItem (items : List Value) (outer : List Frame)
  | afterMember (members : List (Option String × Value)) (outer : List Frame)
  | done (v : Value)

namespace Stage

def close (v : Value) : List Frame → Stage
  | [] => .done v
  | .array items :: outer => .afterItem (v :: items) outer
  | .object members key :: outer => .afterMember ((key, v) :: members) outer

def start (outer : List Frame) : Token → Option Stage
  | .null => some (close .null outer)
  | .bool b => some (close (.bool b) outer)
  | .number l => some (close (.number l) outer)
  | .string text => some (close (.string text) outer)
  | .beginArray => some (.firstItem outer)
  | .beginObject => some (.firstKey outer)
  | _ => none

def step : Stage → Token → Option Stage
  | .value outer, token => start outer token
  | .firstItem outer, .endArray => some (close (.array []) outer)
  | .firstItem outer, token => start (.array [] :: outer) token
  | .firstKey outer, .endObject => some (close (.object []) outer)
  | .firstKey outer, .string key => some (.colon [] key outer)
  | .nextKey members outer, .string key => some (.colon members key outer)
  | .colon members key outer, .colon => some (.value (.object members key :: outer))
  | .afterItem items outer, .comma => some (.value (.array items :: outer))
  | .afterItem items outer, .endArray => some (close (.array items.reverse) outer)
  | .afterMember members outer, .comma => some (.nextKey members outer)
  | .afterMember members outer, .endObject => some (close (.object members.reverse) outer)
  | _, _ => none

end Stage

namespace Value

def ofTokens? (tokens : List Token) : Option Value :=
  match tokens.foldlM Stage.step (.value []) with
  | some (.done v) => some v
  | _ => none

def read (text : String) : Option Value := (tokens text.toList).bind ofTokens?

mutual

def toTokens : Value → List Token
  | .null => [.null]
  | .bool b => [.bool b]
  | .number l => [.number l]
  | .string text => [.string text]
  | .array items => .beginArray :: (itemTokens items ++ [.endArray])
  | .object members => .beginObject :: (memberTokens members ++ [.endObject])

def itemTokens : List Value → List Token
  | [] => []
  | [item] => item.toTokens
  | item :: next :: rest => item.toTokens ++ .comma :: itemTokens (next :: rest)

def memberTokens : List (Option String × Value) → List Token
  | [] => []
  | [(key, v)] => .string key :: .colon :: v.toTokens
  | (key, v) :: next :: rest =>
    .string key :: .colon :: (v.toTokens ++ .comma :: memberTokens (next :: rest))

end

def write (v : Value) : String := String.ofList (v.toTokens.flatMap Token.write)

end Value
end Storyline.Json

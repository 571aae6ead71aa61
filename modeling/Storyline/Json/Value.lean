import Storyline.Json.Token

/-! # JSON values

A value keeps what its text says: number literals as written, members in their order with
repetitions, and `none` for a string whose escapes name an unpaired surrogate, which has no text.
-/
namespace Storyline.Json

inductive Value where
  | null
  | bool (b : Bool)
  | number (literal : Literal)
  | string (text : Option String)
  | array (items : List Value)
  | object (members : List (Option String × Value))

namespace Value

def text? : Value → Option String
  | .string text => text
  | _ => none

def items? : Value → Option (List Value)
  | .array items => some items
  | _ => none

def int64? : Value → Option Int64
  | .number l => l.integer?.bind fun n =>
    if Int64.minValue.toInt ≤ n ∧ n ≤ Int64.maxValue.toInt then some (Int64.ofInt n) else none
  | _ => none

mutual

/-- Whether every string below has a text, every number is in range, and arrays and objects are
nested at most `depth` deep. -/
def decodable : Value → Nat → Bool
  | .null, _ => true
  | .bool _, _ => true
  | .number l, _ => l.inRange
  | .string text, _ => text.isSome
  | .array _, 0 => false
  | .array items, depth + 1 => itemsDecodable items depth
  | .object _, 0 => false
  | .object members, depth + 1 => membersDecodable members depth

def itemsDecodable : List Value → Nat → Bool
  | [], _ => true
  | item :: rest, depth => item.decodable depth && itemsDecodable rest depth

def membersDecodable : List (Option String × Value) → Nat → Bool
  | [], _ => true
  | (key, value) :: rest, depth =>
    key.isSome && value.decodable depth && membersDecodable rest depth

end

end Value
end Storyline.Json

/-! # Operators

Assignments and comparisons carry their operator as written; these are the recognised symbols.
-/
namespace Storyline

inductive Operation where
  | set
  | add
  | subtract
  | multiply
  | divide
  deriving DecidableEq

namespace Operation

def symbol : Operation → String
  | .set => "="
  | .add => "+"
  | .subtract => "-"
  | .multiply => "×"
  | .divide => "÷"

def all : List Operation := [.set, .add, .subtract, .multiply, .divide]

def ofSymbol? (text : String) : Option Operation := all.find? (·.symbol == text)

/-- Whether the operation also has a meaning for values that are no numbers. -/
def appliesToText : Operation → Bool
  | .set | .add => true
  | _ => false

theorem ofSymbol?_symbol (o : Operation) : ofSymbol? o.symbol = some o := by
  cases o <;> decide

end Operation

inductive Relation where
  | equal
  | notEqual
  | less
  | lessOrEqual
  | greater
  | greaterOrEqual
  | contains
  | notContains
  | within
  | notWithin
  deriving DecidableEq

namespace Relation

def symbol : Relation → String
  | .equal => "="
  | .notEqual => "≠"
  | .less => "<"
  | .lessOrEqual => "≤"
  | .greater => ">"
  | .greaterOrEqual => "≥"
  | .contains => "⊇"
  | .notContains => "⊉"
  | .within => "∈"
  | .notWithin => "∉"

def all : List Relation :=
  [.equal, .notEqual, .less, .lessOrEqual, .greater, .greaterOrEqual, .contains, .notContains,
    .within, .notWithin]

def ofSymbol? (text : String) : Option Relation := all.find? (·.symbol == text)

def isNumeric : Relation → Bool
  | .less | .lessOrEqual | .greater | .greaterOrEqual => true
  | _ => false

theorem ofSymbol?_symbol (r : Relation) : ofSymbol? r.symbol = some r := by
  cases r <;> decide

end Relation
end Storyline

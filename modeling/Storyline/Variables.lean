import Storyline.Fault
import Storyline.Number.Numeral
import Storyline.Number.Shortest
import Storyline.Operator
import Storyline.Repeat
import Storyline.Text.Search

/-! # Variables

The variables of a story in document order. Their names never change; their values are texts, read
as numbers where an operator asks for it.
-/
namespace Storyline

open Number (Binary64)

structure Variable where
  name : String
  loaded : String
  current : String
  deriving DecidableEq

structure Variables where
  slots : List Variable
  distinct : (slots.map (·.name)).Nodup

namespace Variables

def ofEntries (entries : List Entry) (distinct : (entries.map (·.name)).Nodup) : Variables where
  slots := entries.map fun e => ⟨e.name, e.value, e.value⟩
  distinct := by simpa [List.map_map, Function.comp_def] using distinct

def load (entries : List Entry) : Except Fault Variables :=
  match h : firstRepeat [] (entries.map (·.name)) with
  | some name => .error (.duplicateVariable name)
  | none => .ok (ofEntries entries (firstRepeat_eq_none_iff.mp h).1)

def names (t : Variables) : List String := t.slots.map (·.name)

def values (t : Variables) : List String := t.slots.map (·.current)

def get (t : Variables) (name : String) : Except Fault String :=
  match t.slots.find? (·.name == name) with
  | some v => .ok v.current
  | none => .error (.unknownVariable name)

def update (t : Variables) (value : Variable → String) : Variables where
  slots := t.slots.map fun v => { v with current := value v }
  distinct := by simpa [List.map_map, Function.comp_def] using t.distinct

def set (t : Variables) (name value : String) : Except Fault Variables :=
  if name ∈ t.names then .ok (t.update fun v => if v.name = name then value else v.current)
  else .error (.unknownVariable name)

def reset (t : Variables) : Variables := t.update (·.loaded)

/-- Replaces the names of variables by their values, one variable after the other. A value that is
put in is searched for the names of the later variables. A variable is passed over if it has no name
or its name does not occur. -/
def substitute (t : Variables) (text : String) : String :=
  String.ofList (t.slots.foldl (fun text v =>
    if v.name = "" ∨ ¬ Text.occurs v.name.toList text then text
    else Text.replaceAll v.name.toList v.current.toList text) text.toList)

end Variables

def Operation.arithmetic? : Operation → Binary64 → Binary64 → Option Binary64
  | .set, _, _ => none
  | .add, x, y => some (x.add y)
  | .subtract, x, y => some (x.sub y)
  | .multiply, x, y => some (x.mul y)
  | .divide, x, y => some (x.div y)

/-- The value after an operation on `current`. The literal is read as a number in its substituted
form, but stored and appended as written. -/
def Operation.apply (o : Operation) (current written substituted : String) :
    Except Fault String :=
  match Binary64.read current, Binary64.read substituted with
  | some x, some y => .ok (((o.arithmetic? x y).map Binary64.write).getD written)
  | _, _ =>
    match o with
    | .set => .ok written
    | .add => .ok (current ++ written)
    | o => .error (.invalidOperator o.symbol .notForText)

def Relation.holds (r : Relation) (value literal : String) : Except Fault Bool :=
  match r with
  | .equal => .ok (value == literal)
  | .notEqual => .ok (value != literal)
  | .contains => .ok (Text.occurs literal.toList value.toList)
  | .notContains => .ok (!Text.occurs literal.toList value.toList)
  | .within => .ok (Text.occurs value.toList literal.toList)
  | .notWithin => .ok (!Text.occurs value.toList literal.toList)
  | .less => numeric fun x y => x.lt y
  | .lessOrEqual => numeric fun x y => x.le y
  | .greater => numeric fun x y => y.lt x
  | .greaterOrEqual => numeric fun x y => y.le x
where
  numeric (test : Binary64 → Binary64 → Bool) : Except Fault Bool :=
    match Binary64.read value, Binary64.read literal with
    | some x, some y => .ok (test x y)
    | _, _ => .error (.invalidOperator r.symbol .needsNumbers)

namespace Variables

def assign (t : Variables) (a : Assignment) : Except Fault Variables := do
  let current ← t.get a.target
  match Operation.ofSymbol? a.symbol with
  | none => .error (.invalidOperator a.symbol .notAssignment)
  | some o => t.set a.target (← o.apply current a.literal (t.substitute a.literal))

def compare (t : Variables) (c : Comparison) : Except Fault Bool := do
  let value ← t.get c.subject
  match Relation.ofSymbol? c.symbol with
  | none => .error (.invalidOperator c.symbol .notComparison)
  | some r => r.holds value (t.substitute c.literal)

end Variables
end Storyline

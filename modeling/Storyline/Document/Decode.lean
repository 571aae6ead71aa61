import Storyline.Document
import Storyline.Json.Record
import Storyline.Json.Text

/-! # Reading documents

The shape of nodes and documents as JSON values. The object of a node also holds the fields of its
kind, and `type` names the kind or gives its number. Members that the kind does not have are
foreign: they are ignored, but have to be decodable.
-/
namespace Storyline

open Json (Value field? namedMembers)

namespace Decode

def list (item : Value → Option α) (v : Value) : Option (List α) := v.items?.bind (·.mapM item)

def link : Option Value → Option (Option NodeId)
  | none | some .null => some none
  | some v => v.int64?.map some

def entry (v : Value) : Option Entry :=
  match v.record? ["name", "value"] with
  | some [some name, some value] => return ⟨← name.text?, ← value.text?⟩
  | _ => none

def assignment (v : Value) : Option Assignment :=
  match v.record? ["variable", "operator", "value"] with
  | some [some target, some symbol, some literal] =>
    return ⟨← target.text?, ← symbol.text?, ← literal.text?⟩
  | _ => none

def comparison (v : Value) : Option Comparison :=
  match v.record? ["variable", "operator", "value"] with
  | some [some subject, some symbol, some literal] =>
    return ⟨← subject.text?, ← symbol.text?, ← literal.text?⟩
  | _ => none

def choice (v : Value) : Option Choice :=
  match v.record? ["choiceString", "linksTo"] with
  | some [some text, target] => return ⟨← text.text?, ← link target⟩
  | _ => none

def isNull : Value → Bool
  | .null => true
  | _ => false

/-- Inside a node an empty object also stands for nothing. -/
def isVoid : Value → Bool
  | .null | .object [] => true
  | _ => false

/-- A mode is its name, or an object whose only key is the name and whose value holds nothing. -/
def mode (holdsNothing : Value → Bool) : Value → Option RouteMode
  | .string text => text.bind RouteMode.ofName?
  | .object [(key, v)] => if holdsNothing v then key.bind RouteMode.ofName? else none
  | _ => none

def guardedRoute (v : Value) : Option GuardedRoute :=
  match v.record? ["comparisons", "mode", "linksTo"] with
  | some [some comparisons, some joint, some target] =>
    return ⟨← list comparison comparisons, ← mode isVoid joint, ← target.int64?⟩
  | _ => none

def chanceRoute (v : Value) : Option ChanceRoute :=
  match v.record? ["weight", "linksTo"] with
  | some [some weight, some target] => return ⟨← weight.text?, ← target.int64?⟩
  | _ => none

def kind : Value → Option Kind
  | .string text => text.bind Kind.ofName?
  | .number l => l.integer?.bind fun n => if 0 ≤ n then Kind.all[n.toNat]? else none
  | _ => none

/-- A field that has to be given, once. -/
def required (members : List (String × Value)) (name : String) (read : Value → Option α) :
    Option α :=
  (field? members name).bind (·.bind read)

def linkField (members : List (String × Value)) (name : String) : Option (Option NodeId) :=
  (field? members name).bind link

def body (members : List (String × Value)) : Kind → Option Body
  | .start =>
    return .scene (.start (← required members "name" Value.text?) (← linkField members "linksTo"))
  | .dialog =>
    return .scene (.dialog (← required members "dialogSource" Value.text?)
      (← required members "dialogString" Value.text?) (← linkField members "linksTo"))
  | .choice => return .scene (.choice (← required members "choices" (list choice)))
  | .function =>
    return .scene (.function (← required members "statement" Value.text?)
      (← linkField members "linksTo"))
  | .ending => some (.scene .ending)
  | .update =>
    return .transit (.update (← required members "assignments" (list assignment))
      (← linkField members "linksTo"))
  | .conditional =>
    return .transit (.conditional (← required members "routes" (list guardedRoute))
      (← linkField members "defaultRouteLinksTo"))
  | .probability => return .transit (.probability (← required members "routes" (list chanceRoute)))
  | .teleport =>
    return .transit (.teleport (← required members "destinationExperience" Value.text?)
      (← required members "destinationStartNode" Value.text?))

def properties (members : List (String × Value)) : Option (List Entry) :=
  match field? members "properties" with
  | some (some .null) | some none => some []
  | some (some v) => list entry v
  | none => none

/-- A node. The members of its kind and the foreign ones may be nested `depth` deep. -/
def node (depth : Nat) : Value → Option Node
  | .object members => do
    let named ← namedMembers members
    let id ← required named "id" Value.int64?
    let properties ← properties named
    let others := named.filter fun member => member.1 != "id" && member.1 != "properties"
    if others.all (·.2.decodable depth) then
      return ⟨id, properties, ← body others (← required others "type" kind)⟩
    else none
  | _ => none

/-- How deep decoded arrays and objects may be nested, counted from the root of the text. The
object of a node in a document is the fifth level. -/
def nesting : Nat := 127

def experience (v : Value) : Option Experience :=
  match v.record? ["name", "nodeList"] with
  | some [some name, some nodes] => return ⟨← name.text?, ← list (node (nesting - 5)) nodes⟩
  | _ => none

def document (v : Value) : Option Document :=
  match v.record? ["experiences", "variables", "dataTable"] with
  | some [some experiences, some declared, some dataTable] =>
    return ⟨← list experience experiences, ← list entry declared, ← list entry dataTable⟩
  | _ => none

end Decode

def Document.read (text : String) : Option Document := (Value.read text).bind Decode.document

/-- The node that a JSON text holds. -/
def Node.read (text : String) : Option Node :=
  (Value.read text).bind (Decode.node (Decode.nesting - 1))

def RouteMode.read (text : String) : Option RouteMode :=
  (Value.read text).bind (Decode.mode Decode.isNull)

end Storyline

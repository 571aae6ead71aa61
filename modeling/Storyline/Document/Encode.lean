import Storyline.Document
import Storyline.Json.Text

/-! # Writing documents

Records are written as objects with all their fields in declared order, an absent link as null. The
object of a node names its kind and then holds the fields of that kind.
-/
namespace Storyline

open Json (Value)

namespace Encode

def text (s : String) : Value := .string (some s)

def int (n : Int64) : Value := .number (.ofInt n.toInt)

def link : Option NodeId → Value
  | some id => int id
  | none => .null

def record (fields : List (String × Value)) : Value :=
  .object (fields.map fun (name, v) => (some name, v))

def list (item : α → Value) (items : List α) : Value := .array (items.map item)

def entry (e : Entry) : Value := record [("name", text e.name), ("value", text e.value)]

def assignment (a : Assignment) : Value :=
  record [("variable", text a.target), ("operator", text a.symbol), ("value", text a.literal)]

def comparison (c : Comparison) : Value :=
  record [("variable", text c.subject), ("operator", text c.symbol), ("value", text c.literal)]

def choice (c : Choice) : Value :=
  record [("choiceString", text c.text), ("linksTo", link c.link)]

def guardedRoute (r : GuardedRoute) : Value :=
  record [("comparisons", list comparison r.comparisons), ("mode", text r.mode.name),
    ("linksTo", int r.target)]

def chanceRoute (r : ChanceRoute) : Value :=
  record [("weight", text r.weight), ("linksTo", int r.target)]

def body : Body → List (String × Value)
  | .scene (.start name target) => [("name", text name), ("linksTo", link target)]
  | .scene (.dialog speaker line target) =>
    [("dialogSource", text speaker), ("dialogString", text line), ("linksTo", link target)]
  | .scene (.choice options) => [("choices", list choice options)]
  | .scene (.function statement target) =>
    [("statement", text statement), ("linksTo", link target)]
  | .scene .ending => []
  | .transit (.update assignments target) =>
    [("assignments", list assignment assignments), ("linksTo", link target)]
  | .transit (.conditional routes fallback) =>
    [("routes", list guardedRoute routes), ("defaultRouteLinksTo", link fallback)]
  | .transit (.probability routes) => [("routes", list chanceRoute routes)]
  | .transit (.teleport experience start) =>
    [("destinationExperience", text experience), ("destinationStartNode", text start)]

def node (n : Node) : Value :=
  record (("id", int n.id) :: ("properties", list entry n.properties) ::
    ("type", text n.kind.name) :: body n.body)

def experience (e : Experience) : Value :=
  record [("name", text e.name), ("nodeList", list node e.nodes)]

def document (d : Document) : Value :=
  record [("experiences", list experience d.experiences), ("variables", list entry d.declared),
    ("dataTable", list entry d.dataTable)]

end Encode

def Document.write (d : Document) : String := (Encode.document d).write

/-- The compact JSON text of a node. -/
def Node.write (n : Node) : String := (Encode.node n).write

end Storyline

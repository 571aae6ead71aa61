/-! # Nodes

A story is a graph of nodes. A scene is shown to the player and waits; a transit node does its work
and passes on at once.
-/
namespace Storyline

/-- Ids are unique within one experience only. -/
abbrev NodeId := Int64

/-- A named text: a property of a node, a variable or an item of the data table. -/
structure Entry where
  name : String
  value : String
  deriving DecidableEq

/-- Writes to the variable `target`. The operator is kept as written. -/
structure Assignment where
  target : String
  symbol : String
  literal : String
  deriving DecidableEq

/-- Tests the variable `subject`. The operator is kept as written. -/
structure Comparison where
  subject : String
  symbol : String
  literal : String
  deriving DecidableEq

structure Choice where
  text : String
  link : Option NodeId
  deriving DecidableEq

inductive RouteMode where
  | all
  | any
  | none
  deriving DecidableEq

namespace RouteMode

def name : RouteMode → String
  | .all => "all"
  | .any => "any"
  | .none => "none"

def ofName? (text : String) : Option RouteMode :=
  [RouteMode.all, .any, .none].find? (·.name == text)

def admits (mode : RouteMode) (allHold anyHolds : Bool) : Bool :=
  match mode with
  | .all => allHold
  | .any => anyHolds
  | .none => !anyHolds

end RouteMode

structure GuardedRoute where
  comparisons : List Comparison
  mode : RouteMode
  target : NodeId
  deriving DecidableEq

/-- The weight is a text that becomes a number after substitution only. -/
structure ChanceRoute where
  weight : String
  target : NodeId
  deriving DecidableEq

inductive Scene where
  | start (name : String) (link : Option NodeId)
  | dialog (speaker line : String) (link : Option NodeId)
  | choice (options : List Choice)
  | function (statement : String) (link : Option NodeId)
  | ending
  deriving DecidableEq

inductive Transit where
  | update (assignments : List Assignment) (link : Option NodeId)
  | conditional (routes : List GuardedRoute) (fallback : Option NodeId)
  | probability (routes : List ChanceRoute)
  | teleport (experience start : String)
  deriving DecidableEq

inductive Body where
  | scene (s : Scene)
  | transit (t : Transit)
  deriving DecidableEq

/-- The kinds of node, in the order of their numbers. -/
inductive Kind where
  | start
  | dialog
  | choice
  | function
  | ending
  | update
  | conditional
  | probability
  | teleport
  deriving DecidableEq

namespace Kind

def name : Kind → String
  | .start => "start"
  | .dialog => "dialog"
  | .choice => "choice"
  | .function => "function"
  | .ending => "end"
  | .update => "variable"
  | .conditional => "conditional"
  | .probability => "probability"
  | .teleport => "teleport"

def all : List Kind :=
  [.start, .dialog, .choice, .function, .ending, .update, .conditional, .probability, .teleport]

def ofName? (text : String) : Option Kind := all.find? (·.name == text)

theorem ofName?_name (k : Kind) : ofName? k.name = some k := by
  cases k <;> decide

end Kind

def Scene.kind : Scene → Kind
  | .start .. => .start
  | .dialog .. => .dialog
  | .choice .. => .choice
  | .function .. => .function
  | .ending => .ending

def Transit.kind : Transit → Kind
  | .update .. => .update
  | .conditional .. => .conditional
  | .probability .. => .probability
  | .teleport .. => .teleport

def Scene.links : Scene → List NodeId
  | .start _ link | .dialog _ _ link | .function _ link => link.toList
  | .choice options => options.filterMap (·.link)
  | .ending => []

/-- The nodes of the same experience that a transit node can lead to. -/
def Transit.links : Transit → List NodeId
  | .update _ link => link.toList
  | .conditional routes fallback => routes.map (·.target) ++ fallback.toList
  | .probability routes => routes.map (·.target)
  | .teleport .. => []

structure Node where
  id : NodeId
  properties : List Entry
  body : Body
  deriving DecidableEq

namespace Node

def kind (node : Node) : Kind :=
  match node.body with
  | .scene s => s.kind
  | .transit t => t.kind

def isDisplayable (node : Node) : Bool :=
  match node.body with
  | .scene _ => true
  | .transit _ => false

def links (node : Node) : List NodeId :=
  match node.body with
  | .scene s => s.links
  | .transit t => t.links

def startName? (node : Node) : Option String :=
  match node.body with
  | .scene (.start name _) => some name
  | _ => none

def property? (node : Node) (name : String) : Option String :=
  (node.properties.find? (·.name == name)).map (·.value)

end Node
end Storyline

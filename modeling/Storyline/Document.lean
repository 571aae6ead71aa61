import Storyline.Node

/-! # Documents

What an authoring tool exports: named node graphs, variables with their first values, and a table
of texts.
-/
namespace Storyline

structure Experience where
  name : String
  nodes : List Node
  deriving DecidableEq

namespace Experience

def node? (e : Experience) (id : NodeId) : Option Node := e.nodes.find? (·.id == id)

def start? (e : Experience) (name : String) : Option Node :=
  e.nodes.find? (·.startName? == some name)

def starts (e : Experience) : List String := e.nodes.filterMap (·.startName?)

end Experience

structure Document where
  experiences : List Experience
  declared : List Entry
  dataTable : List Entry
  deriving DecidableEq

end Storyline

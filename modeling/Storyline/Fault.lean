import Storyline.Node

/-! # Faults

Everything that can go wrong, by cause, and the text that reports it. Names stand in the text as
they are.
-/
namespace Storyline

/-- Why an operator cannot be used. -/
inductive OperatorFault where
  | notAssignment
  | notForText
  | notComparison
  | needsNumbers
  deriving DecidableEq

def OperatorFault.reason : OperatorFault → String
  | .notAssignment => "not an assignment operator"
  | .notForText => "cannot be applied to text"
  | .notComparison => "not a comparison operator"
  | .needsNumbers => "requires numeric operands"

inductive Fault where
  | malformedText
  | unreadableFile
  | duplicateVariable (name : String)
  | duplicateExperience (name : String)
  | duplicateNode (id : NodeId) (experience : String)
  | unknownVariable (name : String)
  | unknownItem (name : String)
  | unknownExperience (name : String)
  | unknownOperator (symbol : String)
  | invalidOperator (symbol : String) (cause : OperatorFault)
  | noUsableRoute
  | noCurrentNode
  | unknownStart (name experience : String)
  | invalidChoice (index : Option UInt64) (available : Nat)
  | cannotAdvance (kind : Kind)
  | brokenChain (origin : NodeId)
  | stepLimit (limit : UInt64)
  | stepOverflow
  deriving DecidableEq

namespace Fault

def indexText : Option UInt64 → String
  | some index => s!"Some({index})"
  | none => "None"

def message : Fault → String
  | .malformedText => "JSON error"
  | .unreadableFile => "IO error"
  | .duplicateVariable name => s!"duplicate variable name '{name}'"
  | .duplicateExperience name => s!"duplicate experience name '{name}'"
  | .duplicateNode id experience => s!"duplicate node id {id} in experience '{experience}'"
  | .unknownVariable name => s!"variable not found: '{name}'"
  | .unknownItem name => s!"data table item not found: '{name}'"
  | .unknownExperience name => s!"experience not found: '{name}'"
  | .unknownOperator symbol => s!"unknown operator '{symbol}'"
  | .invalidOperator symbol cause => s!"invalid operator '{symbol}': {cause.reason}"
  | .noUsableRoute => "no probability route has a usable weight"
  | .noCurrentNode => "no current node"
  | .unknownStart name experience => s!"no start node named '{name}' in experience '{experience}'"
  | .invalidChoice index available =>
    s!"invalid or missing choice index {indexText index} ({available} choices)"
  | .cannotAdvance kind => s!"cannot advance from a '{kind.name}' node"
  | .brokenChain origin =>
    s!"the chain after node {origin} ended without reaching a displayable node"
  | .stepLimit limit => s!"passed through more than {limit} transient nodes in one step"
  | .stepOverflow => "the count of transient nodes left the range of 64 bits"

end Fault
end Storyline

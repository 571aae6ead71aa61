import Storyline.Project

/-! # Lint

Defects of a project that can be told without playing it. Weights are judged by the values that the
variables have when the check is made.
-/
namespace Storyline

open Number (Binary64)

inductive Severity where
  | error
  | warning
  deriving DecidableEq

inductive Defect where
  | missingNode (target : NodeId)
  | noLink
  | noChoices
  | choiceWithoutLink (index : Nat)
  | unknownTarget (name : String)
  | invalidOperation (symbol : String)
  | noFallback
  | unknownSubject (name : String)
  | invalidRelation (symbol : String)
  | noRoutes
  | unusableWeight (index : Nat) (weight : String)
  | missingExperience (name : String)
  | missingStart (name experience : String)
  deriving DecidableEq

namespace Defect

def severity : Defect → Severity
  | .noLink | .noChoices | .choiceWithoutLink _ | .noFallback | .unusableWeight .. => .warning
  | _ => .error

def text : Defect → String
  | .missingNode target => s!"links to missing node {target}"
  | .noLink => "has no outgoing link"
  | .noChoices => "has no choices"
  | .choiceWithoutLink index => s!"choice {index} has no outgoing link"
  | .unknownTarget name => s!"assigns unknown variable '{name}'"
  | .invalidOperation symbol => s!"uses invalid assignment operator '{symbol}'"
  | .noFallback => "has no default route"
  | .unknownSubject name => s!"compares unknown variable '{name}'"
  | .invalidRelation symbol => s!"uses invalid comparison operator '{symbol}'"
  | .noRoutes => "has no routes"
  | .unusableWeight index weight =>
    s!"route {index} weight '{weight}' does not parse with loaded values"
  | .missingExperience name => s!"teleports to missing experience '{name}'"
  | .missingStart name experience =>
    s!"teleports to missing start node '{name}' in '{experience}'"

end Defect

inductive Finding where
  | noStart (experience : String)
  | inNode (id : NodeId) (kind : Kind) (experience : String) (defect : Defect)
  deriving DecidableEq

namespace Finding

def severity : Finding → Severity
  | .noStart _ => .warning
  | .inNode _ _ _ defect => defect.severity

def text : Finding → String
  | .noStart experience => s!"Experience '{experience}' has no start node"
  | .inNode id kind experience defect =>
    s!"Node {id} ({kind.name}) in '{experience}' {defect.text}"

end Finding

/-- The elements for which `test` holds, as `found` reports them with their index. -/
def reportIndexed (items : List α) (test : α → Bool) (found : Nat → α → Defect) : List Defect :=
  items.zipIdx.filterMap fun (a, i) => if test a then some (found i a) else none

def Scene.defects : Scene → List Defect
  | .start _ link | .dialog _ _ link | .function _ link => if link.isNone then [.noLink] else []
  | .choice options =>
    (if options.isEmpty then [.noChoices] else []) ++
      reportIndexed options (·.link.isNone) fun i _ => .choiceWithoutLink i
  | .ending => []

def Assignment.defects (t : Variables) (a : Assignment) : List Defect :=
  (if a.target ∈ t.names then [] else [.unknownTarget a.target]) ++
    if (Operation.ofSymbol? a.symbol).isNone then [.invalidOperation a.symbol] else []

def Comparison.defects (t : Variables) (c : Comparison) : List Defect :=
  (if c.subject ∈ t.names then [] else [.unknownSubject c.subject]) ++
    if (Relation.ofSymbol? c.symbol).isNone then [.invalidRelation c.symbol] else []

/-- Whether the weight, with the values put in, is a finite number that is not negative. The draw
has a test of its own. -/
def ChanceRoute.isUsable (t : Variables) (r : ChanceRoute) : Bool :=
  (Binary64.read (t.substitute r.weight)).any fun w => w.isFinite && (Binary64.zero false).le w

namespace Playthrough

def transitDefects (p : Playthrough) : Transit → List Defect
  | .update assignments link =>
    (if link.isNone then [.noLink] else []) ++ assignments.flatMap (·.defects p.store)
  | .conditional routes fallback =>
    (if fallback.isNone then [.noFallback] else []) ++
      routes.flatMap fun r => r.comparisons.flatMap (·.defects p.store)
  | .probability routes =>
    (if routes.isEmpty then [.noRoutes] else []) ++
      reportIndexed routes (!·.isUsable p.store) fun i r => .unusableWeight i r.weight
  | .teleport experience start =>
    match p.project.experience experience with
    | .error _ => [.missingExperience experience]
    | .ok e => if start ∈ e.starts then [] else [.missingStart start experience]

def bodyDefects (p : Playthrough) : Body → List Defect
  | .scene s => s.defects
  | .transit t => p.transitDefects t

def nodeFindings (p : Playthrough) (e : Experience) (node : Node) : List Finding :=
  let missing := (node.links.filter fun target => (e.node? target).isNone).map Defect.missingNode
  (missing ++ p.bodyDefects node.body).map (.inNode node.id node.kind e.name)

def experienceFindings (p : Playthrough) (e : Experience) : List Finding :=
  (if e.starts.isEmpty then [.noStart e.name] else []) ++ e.nodes.flatMap (p.nodeFindings e)

def findings (p : Playthrough) : List Finding :=
  p.project.experiences.flatMap p.experienceFindings

end Playthrough

structure LintReport where
  errors : List String
  warnings : List String
  deriving DecidableEq

namespace LintReport

def ofFindings (findings : List Finding) : LintReport where
  errors := (findings.filter (·.severity = .error)).map (·.text)
  warnings := (findings.filter (·.severity = .warning)).map (·.text)

def isClean (r : LintReport) : Bool := r.errors.isEmpty && r.warnings.isEmpty

/-- The report as text, without a line end after the summary. -/
def text (r : LintReport) : String :=
  String.join (r.warnings.map fun w => s!"WARNING: {w}\n") ++
    String.join (r.errors.map fun e => s!"ERROR: {e}\n") ++
    s!"Summary: {r.errors.length} errors, {r.warnings.length} warnings"

end LintReport

def Playthrough.lint (p : Playthrough) : LintReport := .ofFindings p.findings

end Storyline

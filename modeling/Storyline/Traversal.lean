import Storyline.Project

/-! # Traversal

A cursor walks through one experience at a time and rests on scenes only. Transit nodes on the way
are passed within one advance: they may write variables, draw routes and lead over to another
experience.
-/
namespace Storyline

/-- The scene as the player sees it, with its variables replaced. Names of start nodes stay. -/
def Scene.fill (t : Variables) : Scene → Scene
  | .dialog speaker line link => .dialog (t.substitute speaker) (t.substitute line) link
  | .choice options => .choice (options.map fun c => { c with text := t.substitute c.text })
  | .function statement link => .function (t.substitute statement) link
  | s => s

def Node.fill (t : Variables) (node : Node) : Node where
  id := node.id
  properties := node.properties.map fun e => { e with value := t.substitute e.value }
  body :=
    match node.body with
    | .scene s => .scene (s.fill t)
    | b => b

/-- Where a scene leads. Only a choice node looks at the choice. -/
def Scene.leave (choice : Option UInt64) : Scene → Except Fault (Option NodeId)
  | .start _ link | .dialog _ _ link | .function _ link => .ok link
  | .choice options =>
    match choice.bind fun i => options[i.toNat]? with
    | some option => .ok option.link
    | none => .error (.invalidChoice choice options.length)
  | .ending => .error (.cannotAdvance .ending)

/-- An assignment that fails changes nothing. -/
def Variables.attempt (t : Variables) (a : Assignment) : Variables :=
  match t.assign a with
  | .ok t => t
  | .error _ => t

/-- A playthrough with an open experience and a cursor in it. -/
structure Traversal where
  play : Playthrough
  experience : Experience
  current : Option NodeId

namespace Traversal

def new (play : Playthrough) (name : String) : Except Fault Traversal :=
  (play.project.experience name).map fun e => ⟨play, e, none⟩

def node? (t : Traversal) (id : NodeId) : Option Node :=
  (t.experience.node? id).map (·.fill t.play.store)

def currentNode? (t : Traversal) : Option Node := t.current.bind t.node?

def isFinished (t : Traversal) : Bool :=
  (t.current.bind t.experience.node?).any fun node => node.body = .scene .ending

def start (t : Traversal) (name : String) : Except Fault Node × Traversal :=
  match t.experience.start? name with
  | none => (.error (.unknownStart name t.experience.name), t)
  | some first =>
    let t := { t with current := some first.id }
    match t.node? first.id with
    | some node => (.ok node, t)
    | none => (.error .noCurrentNode, t)

/-- Opens an experience at a start node. The experience that was open is opened again if there is
no start node of that name. -/
def enter (t : Traversal) (experience name : String) : Except Fault Node × Traversal :=
  match t.play.project.experience experience with
  | .error fault => (.error fault, t)
  | .ok e =>
    match start { t with experience := e } name with
    | (.ok node, u) => (.ok node, u)
    | (.error fault, u) => (.error fault, { u with experience := t.experience })

def pass (t : Traversal) : Transit → Option NodeId × Traversal
  | .update assignments link =>
    (link, { t with play.store := assignments.foldl Variables.attempt t.play.store })
  | .conditional routes fallback => (t.play.store.route routes fallback, t)
  | .probability routes =>
    match drawRoute t.play.store routes t.play.source with
    | (.ok id, source) => (some id, { t with play.source := source })
    | (.error _, source) => (none, { t with play.source := source })
  | .teleport experience name =>
    match t.play.project.experience experience with
    | .ok e => ((e.start? name).map (·.id), { t with experience := e })
    | .error _ => (none, t)

inductive Arrival where
  | scene (node : Node)
  | nowhere
  | exhausted

/-- Passes transit nodes from `next` on, `budget` at most, up to a scene. -/
def walk : Nat → Option NodeId → Traversal → Arrival × Traversal
  | budget, next, t =>
    match next.bind t.experience.node? with
    | none => (.nowhere, t)
    | some node =>
      match node.body, budget with
      | .scene _, _ => (.scene node, t)
      | .transit _, 0 => (.exhausted, t)
      | .transit work, budget + 1 =>
        let (next, t) := t.pass work
        walk budget next t

/-- Settles the cursor after a walk that left from `origin`. A limit of 2⁶⁴ - 1 cannot be exceeded
by a 64-bit count. -/
def settle (origin : NodeId) : Arrival × Traversal → Except Fault Node × Traversal
  | (.scene node, t) => (.ok (node.fill t.play.store), { t with current := some node.id })
  | (.nowhere, t) => (.error (.brokenChain origin), { t with current := none })
  | (.exhausted, t) =>
    if t.play.project.stepLimit.toNat + 1 < UInt64.size then
      (.error (.stepLimit t.play.project.stepLimit), { t with current := none })
    else (.error .stepOverflow, t)

def advance (t : Traversal) (choice : Option UInt64) : Except Fault Node × Traversal :=
  match t.current with
  | none => (.error .noCurrentNode, t)
  | some origin =>
    match t.experience.node? origin with
    | none => (.error (.brokenChain origin), { t with current := none })
    | some node =>
      match node.body with
      | .transit work => (.error (.cannotAdvance work.kind), t)
      | .scene s =>
        match s.leave choice with
        | .error fault => (.error fault, t)
        | .ok next => settle origin (walk t.play.project.stepLimit.toNat next t)

end Traversal
end Storyline

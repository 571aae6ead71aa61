import Storyline.Lint
import Storyline.Traversal

/-! # Sessions

A session is a playthrough with at most one open traversal, driven by commands.
-/
namespace Storyline

inductive Session where
  | closed (play : Playthrough)
  | opened (t : Traversal)

inductive Command where
  | openExperience (name : String)
  | start (name : String)
  | enter (experience start : String)
  | advance (choice : Option UInt64)
  | current
  | node (id : NodeId)
  | get (name : String)
  | set (name value : String)
  | reset
  | substitute (text : String)
  | assign (a : Assignment)
  | compare (c : Comparison)
  | item (name : String)
  | route (routes : List GuardedRoute) (fallback : Option NodeId)
  | draw (routes : List ChanceRoute)
  | names
  | stepLimit
  | graph (experience : String)
  | rawNode (experience : String) (id : NodeId)
  | rawStart (experience start : String)
  | lint

inductive Reply where
  | done
  | notOpen
  | fault (f : Fault)
  | node (n : Option Node)
  | text (s : String)
  | truth (b : Bool)
  | link (id : Option NodeId)
  | names (all : List String)
  | limit (n : UInt64)
  | graph (e : Experience)
  | report (r : LintReport)

def Reply.ofExcept (reply : α → Reply) : Except Fault α → Reply
  | .ok a => reply a
  | .error f => .fault f

namespace Session

def play : Session → Playthrough
  | .closed p => p
  | .opened t => t.play

def traversal? : Session → Option Traversal
  | .closed _ => none
  | .opened t => some t

def setPlay (s : Session) (p : Playthrough) : Session :=
  match s with
  | .closed _ => .closed p
  | .opened t => .opened { t with play := p }

def setVariables (s : Session) (t : Variables) : Session :=
  s.setPlay { s.play with store := t }

def write (s : Session) : Except Fault Variables → Reply × Session
  | .ok t => (.done, s.setVariables t)
  | .error f => (.fault f, s)

def move (s : Session) (f : Traversal → Except Fault Node × Traversal) : Reply × Session :=
  match s with
  | .closed p => (.notOpen, .closed p)
  | .opened t => (.ofExcept (.node ∘ some) (f t).1, .opened (f t).2)

def look (s : Session) (f : Traversal → Option Node) : Reply × Session :=
  match s with
  | .closed p => (.notOpen, .closed p)
  | .opened t => (.node (f t), .opened t)

def perform (s : Session) : Command → Reply × Session
  | .openExperience name =>
    match Traversal.new s.play name with
    | .ok t => (.done, .opened t)
    | .error f => (.fault f, .closed s.play)
  | .start name => s.move (·.start name)
  | .enter experience name => s.move (·.enter experience name)
  | .advance choice => s.move (·.advance choice)
  | .current => s.look (·.currentNode?)
  | .node id => s.look (·.node? id)
  | .get name => (.ofExcept .text (s.play.store.get name), s)
  | .set name value => s.write (s.play.store.set name value)
  | .reset => (.done, s.setVariables s.play.store.reset)
  | .substitute text => (.text (s.play.store.substitute text), s)
  | .assign a => s.write (s.play.store.assign a)
  | .compare c => (.ofExcept .truth (s.play.store.compare c), s)
  | .item name => (.ofExcept .text (s.play.item name), s)
  | .route routes fallback => (.link (s.play.store.route routes fallback), s)
  | .draw routes =>
    let (result, source) := drawRoute s.play.store routes s.play.source
    (.ofExcept (.link ∘ some) result, s.setPlay { s.play with source })
  | .names => (.names (s.play.project.experiences.map (·.name)), s)
  | .stepLimit => (.limit s.play.project.stepLimit, s)
  | .graph name => (.ofExcept .graph (s.play.project.experience name), s)
  | .rawNode name id =>
    (.ofExcept (fun e => .node (e.node? id)) (s.play.project.experience name), s)
  | .rawStart name start =>
    (.ofExcept (fun e => .link ((e.start? start).map (·.id))) (s.play.project.experience name), s)
  | .lint => (.report s.play.lint, s)

def run (s : Session) : List Command → List Reply × Session
  | [] => ([], s)
  | c :: rest =>
    let (reply, s) := s.perform c
    let (replies, s) := s.run rest
    (reply :: replies, s)

end Session
end Storyline

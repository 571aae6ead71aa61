import Storyline.Shell.Outcome
import Storyline.Text.Lowercase
import Storyline.Traversal

/-! # Playing at the terminal

Each line of input is an order to a player, who stands in a traversal and has selected the
experience that `start` enters.
-/
namespace Storyline.Shell

/-- What a line asks for. An argument that is missing or has the wrong form is `none`. -/
inductive Order where
  | nothing
  | quit
  | help
  | experiences
  | use (name : Option String)
  | start (name : Option String)
  | next
  | choose (index : Option UInt64)
  | listing
  | get (name : String)
  | set (binding : Option (String × String))
  | item (name : String)
  | reset
  | unknown (word : String)
  deriving DecidableEq

namespace Order

def binding? (text : List Char) : Option (String × String) :=
  (Text.splitAtBlank text).map fun (name, value) =>
    (String.ofList name, String.ofList (Text.trim value))

def ofWord (word : String) (rest : List Char) : Order :=
  let given := String.ofList rest
  let named := if rest.isEmpty then none else some given
  match word with
  | "quit" | "exit" | "q" => .quit
  | "help" | "h" | "?" => .help
  | "experiences" => .experiences
  | "use" => .use named
  | "start" => .start named
  | "next" | "n" => .next
  | "choose" | "c" => .choose (unsigned? rest)
  | "vars" => .listing
  | "get" => .get given
  | "set" => .set (binding? rest)
  | "table" => .item given
  | "reset" => .reset
  | word => .unknown word

/-- The first word of a line, in lower case, names the order; the rest is its argument. -/
def read (line : List Char) : Order :=
  match Text.trim line with
  | [] => .nothing
  | text =>
    let (word, rest) := (Text.splitAtBlank text).getD (text, [])
    ofWord (String.ofList (Text.lower word)) (Text.trim rest)

end Order

def playUsage : String := paragraph
  ["Player: interactive shell for stepping through a compiled project.",
    "",
    "Usage: player <project.json> [--seed <n>]",
    "",
    "  --seed <n>   Seed for probability nodes (default: random)"]

def orderHelp : String := paragraph
  ["Commands:",
    "  experiences          List experiences and their start nodes",
    "  use <experience>     Select the experience to start in",
    "  start <start node>   Place the cursor on a start node",
    "  next                 Advance from the current node",
    "  choose <i>           Pick option i of the current choice node",
    "  vars                 List variables",
    "  get <name>           Show one variable",
    "  set <name> <value>   Overwrite a variable",
    "  table <name>         Resolve a data table entry",
    "  reset                Restore loaded variable values",
    "  help                 Show this help",
    "  quit                 Exit"]

def sceneLines : Body → List String
  | .scene (.start name _) => [s!"[start] {name}"]
  | .scene (.dialog speaker line _) => [if speaker = "" then line else s!"{speaker}: {line}"]
  | .scene (.choice options) => options.zipIdx.map fun (c, i) => s!"  {i}) {c.text}"
  | .scene (.function statement _) => [s!"[function] {statement}"]
  | .scene .ending => ["[end]"]
  | .transit t => [s!"[{t.kind.name}]"]

def nodeText (node : Node) : String :=
  paragraph (sceneLines node.body ++
    node.properties.map fun e => s!"    ({e.name} = {e.value})")

def faultText (f : Fault) : String := s!"ERROR: {f.message}\n"

def experienceLine (e : Experience) : String :=
  s!"  {e.name}: " ++ String.intercalate ", " e.starts

structure Player where
  traversal : Traversal
  selected : String

namespace Player

def prompt (p : Player) : String := s!"{p.traversal.experience.name}> "

def move (p : Player) (f : Traversal → Except Fault Node × Traversal) : Player × String :=
  let (result, traversal) := f p.traversal
  ({ p with traversal }, match result with
    | .ok node => nodeText node
    | .error fault => faultText fault)

def setVariables (p : Player) (t : Variables) : Player :=
  { p with traversal.play.store := t }

def respond (p : Player) : Order → Player × String
  | .nothing => (p, "")
  | .quit => (p, "Goodbye.\n")
  | .help => (p, orderHelp)
  | .experiences => (p, paragraph (p.traversal.play.project.experiences.map experienceLine))
  | .use none => (p, s!"Usage: use <experience>   (selected: {p.selected})\n")
  | .use (some name) =>
    match p.traversal.play.project.experience name with
    | .ok _ => ({ p with selected := name }, s!"Selected experience '{name}'\n")
    | .error fault => (p, faultText fault)
  | .start none => (p, "Usage: start <start node>\n")
  | .start (some name) => p.move (·.enter p.selected name)
  | .next => p.move (·.advance none)
  | .choose none => (p, "Usage: choose <index>\n")
  | .choose (some index) => p.move (·.advance (some index))
  | .listing =>
    (p, paragraph (p.traversal.play.store.slots.map fun v => s!"  {v.name} = {v.current}"))
  | .get name =>
    match p.traversal.play.store.get name with
    | .ok value => (p, s!"  {name} = {value}\n")
    | .error fault => (p, faultText fault)
  | .set none => (p, "Usage: set <name> <value>\n")
  | .set (some (name, value)) =>
    match p.traversal.play.store.set name value with
    | .ok t => (p.setVariables t, s!"  {name} = {value}\n")
    | .error fault => (p, faultText fault)
  | .item name =>
    match p.traversal.play.item name with
    | .ok value => (p, s!"  {value}\n")
    | .error fault => (p, faultText fault)
  | .reset => (p.setVariables p.traversal.play.store.reset, "Variables reset.\n")
  | .unknown word =>
    (p, s!"Unknown command: '{word}'. Type 'help' for available commands.\n")

/-- Responds to the lines up to an order to quit, with a prompt before each. -/
def converse (p : Player) : List (List Char) → Player × List String
  | [] => (p, [p.prompt])
  | line :: rest =>
    match Order.read line with
    | .quit => (p, [p.prompt, (p.respond .quit).2])
    | order =>
      let (next, shown) := p.respond order
      let (last, more) := next.converse rest
      (last, p.prompt :: shown :: more)

def new? (play : Playthrough) : Option Player :=
  play.project.experiences.head?.map fun e => ⟨⟨play, e, none⟩, e.name⟩

def greeting (p : Player) : String :=
  let experiences := p.traversal.play.project.experiences.length
  let declared := p.traversal.play.store.slots.length
  paragraph
    [s!"Loaded {experiences} experiences, {declared} variables", "Type 'help' for commands.", ""]

def seed? (seed : Option UInt64) : List String → Except Outcome (Option UInt64)
  | [] => .ok seed
  | "--seed" :: value :: rest =>
    match unsigned? value.toList with
    | some n => seed? (some n) rest
    | none => .error (.failure s!"Invalid seed: {value}")
  | argument :: _ => .error ⟨1, playUsage, paragraph [s!"Unknown argument: {argument}"]⟩

def launch (file : String → File) (source : Option UInt64 → RandomSource) :
    List String → Except Outcome Player
  | [] => .error ⟨0, playUsage, ""⟩
  | path :: options =>
    if path = "--help" ∨ path = "-h" then .error ⟨0, playUsage, ""⟩
    else do
      let seed ← seed? none options
      let project := match file path with
        | .text content => Project.read content Project.defaultStepLimit
        | _ => .error .unreadableFile
      match project with
      | .error fault => .error (.failure s!"ERROR: Failed to load project: {fault.message}")
      | .ok project =>
        match new? (.new project (source seed)) with
        | some p => .ok p
        | none => .error (.failure "ERROR: Project has no experiences")

def run (file : String → File) (source : Option UInt64 → RandomSource) (arguments : List String)
    (input : String) : Outcome :=
  match launch file source arguments with
  | .error outcome => outcome
  | .ok p => ⟨0, String.join (p.greeting :: (p.converse (lines input.toList)).2), ""⟩

end Player
end Storyline.Shell

import Storyline.Lint
import Storyline.Shell.Outcome

/-! # Checking at the terminal

Loads a project, reports what lint finds, and fails if there are errors.
-/
namespace Storyline.Shell

def checkUsage : String := "Usage: project_linter <project.json>\n"

def checkText (play : Playthrough) (report : LintReport) : String :=
  let experiences := play.project.experiences.length
  let nodes := (play.project.experiences.flatMap (·.nodes)).length
  let declared := play.store.slots.length
  paragraph
    ([s!"Loaded {experiences} experiences, {nodes} nodes, {declared} variables", "",
      "=== Project Lint Report ===", ""] ++
      (if report.isClean then ["All checks passed!"] else []) ++ [report.text])

/-- A run of the program: it fails when the project does not load or has errors. -/
def check (file : String → File) (source : RandomSource) : List String → Outcome
  | [] => ⟨0, checkUsage, ""⟩
  | path :: _ =>
    if path = "--help" ∨ path = "-h" then ⟨0, checkUsage, ""⟩
    else
      match file path with
      | .missing => .failure s!"ERROR: Path '{path}' does not exist"
      | .unreadable => failed .unreadableFile
      | .text content =>
        match Project.read content Project.defaultStepLimit with
        | .error fault => failed fault
        | .ok project =>
          let play := Playthrough.new project source
          let report := play.lint
          ⟨if report.errors.isEmpty then 0 else 1, checkText play report, ""⟩
where
  failed (fault : Fault) : Outcome :=
    .failure s!"ERROR: Failed to load project: {fault.message}"

end Storyline.Shell

import Storyline.Proofs.DocumentRoundTrip
import Storyline.Proofs.LintCount
import Storyline.Shell.Check

/-! # What a check of a file answers

The exit code and the text that a check leaves behind, told from the defects of the file.
-/
namespace Storyline

theorem LintReport.isClean_iff {r : LintReport} :
    r.isClean ↔ r.errors.length = 0 ∧ r.warnings.length = 0 := by
  simp [isClean]

namespace Shell

theorem paragraph_append (lines more : List String) :
    paragraph (lines ++ more) = paragraph lines ++ paragraph more := by
  simp [paragraph]

theorem paragraph_text (r : LintReport) :
    paragraph [r.text] = paragraph (r.warnings.map ("WARNING: " ++ ·)) ++
      (paragraph (r.errors.map ("ERROR: " ++ ·)) ++
        paragraph [s!"Summary: {r.errors.length} errors, {r.warnings.length} warnings"]) := by
  simp only [paragraph, LintReport.text, List.map_map, List.map_cons, List.map_nil,
    String.join_cons, String.join_nil, Function.comp_def, String.append_assoc, String.append_empty]
  rfl

def checkLines (play : Playthrough) : List String :=
  let experiences := play.project.experiences.length
  let nodes := (play.project.experiences.map (·.nodes.length)).sum
  let declared := play.project.document.declared.length
  [s!"Loaded {experiences} experiences, {nodes} nodes, {declared} variables", "",
    "=== Project Lint Report ===", ""] ++
  (if play.errorCount = 0 ∧ play.warningCount = 0 then ["All checks passed!"] else []) ++
  play.lint.warnings.map ("WARNING: " ++ ·) ++ play.lint.errors.map ("ERROR: " ++ ·) ++
  [s!"Summary: {play.errorCount} errors, {play.warningCount} warnings"]

theorem checkText_lines (p : Project) (source : RandomSource) :
    checkText (.new p source) (Playthrough.new p source).lint =
      paragraph (checkLines (.new p source)) := by
  have hslots : (Playthrough.new p source).store.slots.length = p.document.declared.length :=
    List.length_map _
  have hclean : (Playthrough.new p source).lint.isClean ↔
      (Playthrough.new p source).errorCount = 0 ∧ (Playthrough.new p source).warningCount = 0 := by
    rw [LintReport.isClean_iff, Playthrough.lint_errors, Playthrough.lint_warnings]
  simp only [checkText, checkLines, paragraph_append, paragraph_text, hslots, hclean,
    Playthrough.lint_errors, Playthrough.lint_warnings, List.length_flatMap, String.append_assoc]
  rfl

theorem check_succeeds_iff {file : String → File} {source : RandomSource} {path : String}
    (rest : List String) (hhelp : path ≠ "--help") (hshort : path ≠ "-h")
    (hfile : file path ≠ .missing) :
    (check file source (path :: rest)).exit = 0 ↔ ∃ content p, file path = .text content ∧
      Project.read content Project.defaultStepLimit = .ok p ∧
      (Playthrough.new p source).errorCount = 0 := by
  cases hf : file path with
  | missing => exact absurd hf hfile
  | unreadable => simp [check, check.failed, Outcome.failure, hhelp, hshort, hf]
  | text content =>
    cases hr : Project.read content Project.defaultStepLimit with
    | error fault => simp [check, check.failed, Outcome.failure, hhelp, hshort, hf, hr]
    | ok p =>
      simp [check, hhelp, hshort, hf, hr, ← Playthrough.lint_errors]

theorem check_prints {file : String → File} {source : RandomSource} {path content : String}
    {p : Project} (rest : List String) (hhelp : path ≠ "--help") (hshort : path ≠ "-h")
    (hfile : file path = .text content)
    (hread : Project.read content Project.defaultStepLimit = .ok p) :
    (check file source (path :: rest)).output = paragraph (checkLines (.new p source)) := by
  rw [← checkText_lines]
  simp [check, hhelp, hshort, hfile, hread]

end Shell

/-- The report has one error for each mistake and one warning for each gap, whatever the values of
the variables. So a check of a file succeeds exactly when the file loads and has no mistakes, and it
prints how many there are of both. -/
theorem report_counts_defects :
    (∀ play : Playthrough, play.lint.errors.length = play.errorCount ∧
      play.lint.warnings.length = play.warningCount) ∧
    ∀ (file : String → Shell.File) (source : RandomSource) (path : String) (rest : List String),
      path ≠ "--help" → path ≠ "-h" → file path ≠ .missing →
      ((Shell.check file source (path :: rest)).exit = 0 ↔
        ∃ content p, file path = .text content ∧
          Project.read content Project.defaultStepLimit = .ok p ∧
          (Playthrough.new p source).errorCount = 0) ∧
      ∀ content p, file path = .text content →
        Project.read content Project.defaultStepLimit = .ok p →
        (Shell.check file source (path :: rest)).output =
          Shell.paragraph (Shell.checkLines (.new p source)) := by
  refine ⟨fun play => ⟨play.lint_errors, play.lint_warnings⟩, ?_⟩
  intro file source path rest hhelp hshort hfile
  refine ⟨Shell.check_succeeds_iff rest hhelp hshort hfile, fun content p hf hr => ?_⟩
  exact Shell.check_prints rest hhelp hshort hf hr

/-- A start node is missing, and what the one node says is wrong throughout. -/
def attic : Project where
  document := ⟨[⟨"Attic", [⟨0, [], .transit (.update [⟨"key", "^", "1"⟩] (some 7))⟩]⟩], [], []⟩
  experiences_distinct := by decide
  nodes_distinct := by decide
  variables_distinct := by decide
  stepLimit := Project.defaultStepLimit

theorem attic_check_fails :
    ∃ content, Project.read content Project.defaultStepLimit = .ok attic ∧
      let outcome := Shell.check (fun _ => .text content) (.cycle #[0]) ["attic.json"]
      outcome.exit ≠ 0 ∧ outcome.output = Shell.paragraph
        ["Loaded 1 experiences, 1 nodes, 0 variables", "", "=== Project Lint Report ===", "",
          "WARNING: Experience 'Attic' has no start node",
          "ERROR: Node 0 (variable) in 'Attic' links to missing node 7",
          "ERROR: Node 0 (variable) in 'Attic' assigns unknown variable 'key'",
          "ERROR: Node 0 (variable) in 'Attic' uses invalid assignment operator '^'",
          "Summary: 3 errors, 1 warnings"] := by
  have hread : Project.read (Document.write attic.document) Project.defaultStepLimit =
      .ok attic := by
    rw [Project.read, Document.read_write]
    rfl
  have h := report_counts_defects.2 (fun _ => .text (Document.write attic.document)) (.cycle #[0])
    "attic.json" [] (by decide) (by decide) (by simp)
  refine ⟨_, hread, fun hexit => ?_, ?_⟩
  · obtain ⟨content, p, hf, hp, hcount⟩ := h.1.mp hexit
    obtain rfl := Shell.File.text.inj hf
    obtain rfl := Except.ok.inj (hread.symm.trans hp)
    exact absurd hcount (by decide +kernel)
  · rw [h.2 _ _ rfl hread]
    decide +kernel

end Storyline

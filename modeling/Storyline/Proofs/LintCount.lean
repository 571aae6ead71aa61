import Mathlib.Algebra.GroupWithZero.Nat
import Storyline.Lint
import Storyline.Proofs.Lookup

/-! # The report is exact

Defects are counted here over the nodes as they are written, place by place where a defect can be.
The report holds one finding for each of them and no other.
-/
namespace Storyline

open Number (Binary64)

namespace Body

/-- The places where the node that comes next is written: a link, the link of each choice, the
target of each route, a fallback. Nothing need stand there. -/
@[simp]
def exits : Body → List (Option NodeId)
  | .scene (.start _ link) | .scene (.dialog _ _ link) | .scene (.function _ link)
  | .transit (.update _ link) => [link]
  | .scene (.choice options) => options.map (·.link)
  | .transit (.conditional routes fallback) => routes.map (some ·.target) ++ [fallback]
  | .transit (.probability routes) => routes.map (some ·.target)
  | .scene .ending | .transit (.teleport ..) => []

@[simp]
def assignments : Body → List Assignment
  | .transit (.update assignments _) => assignments
  | _ => []

@[simp]
def comparisons : Body → List Comparison
  | .transit (.conditional routes _) => routes.flatMap (·.comparisons)
  | _ => []

@[simp]
def chances : Body → List ChanceRoute
  | .transit (.probability routes) => routes
  | _ => []

@[simp]
def destinations : Body → List (String × String)
  | .transit (.teleport experience start) => [(experience, start)]
  | _ => []

end Body

def Project.Destination (p : Project) (destination : String × String) : Prop :=
  ∃ e ∈ p.experiences, e.name = destination.1 ∧
    ∃ node ∈ e.nodes, node.startName? = some destination.2

instance (p : Project) (destination : String × String) : Decidable (p.Destination destination) :=
  inferInstanceAs (Decidable (∃ e ∈ p.experiences, _ ∧ _))

/-- A weight that can be drawn by: a finite number that is not negative. -/
def Variables.Usable (t : Variables) (r : ChanceRoute) : Prop :=
  ∃ w, Binary64.read (t.substitute r.weight) = some w ∧ w.isFinite ∧ (Binary64.zero false).le w

theorem Variables.usable_iff {t : Variables} {r : ChanceRoute} :
    t.Usable r ↔ (t.weight? r).isSome := by
  unfold Usable weight?
  cases Binary64.read (t.substitute r.weight) <;> simp [Option.filter]

theorem ChanceRoute.isUsable_iff {t : Variables} {r : ChanceRoute} : r.isUsable t ↔ t.Usable r := by
  unfold isUsable Variables.Usable
  cases Binary64.read (t.substitute r.weight) <;> simp

/-- The report and the draw judge a weight alike, each by its own test. -/
theorem ChanceRoute.isUsable_eq (t : Variables) (r : ChanceRoute) :
    r.isUsable t = (t.weight? r).isSome := by
  rw [Bool.eq_iff_iff, isUsable_iff, Variables.usable_iff]

instance (t : Variables) (r : ChanceRoute) : Decidable (t.Usable r) :=
  decidable_of_iff _ t.usable_iff.symm

def Experience.dangling (e : Experience) (b : Body) : Nat :=
  b.exits.countP fun exit => ∃ id ∈ exit, id ∉ e.nodes.map (·.id)

namespace Playthrough

/-- Unknown names, unknown operators, a draw from nothing and a teleport to nowhere. -/
def mistakes (p : Playthrough) (b : Body) : Nat :=
  b.assignments.countP (·.target ∉ p.store.names) +
  b.assignments.countP (·.symbol ∉ Operation.all.map (·.symbol)) +
  b.comparisons.countP (·.subject ∉ p.store.names) +
  b.comparisons.countP (·.symbol ∉ Relation.all.map (·.symbol)) +
  (if b = .transit (.probability []) then 1 else 0) +
  b.destinations.countP (¬ p.project.Destination ·)

/-- Exits that are left open, a choice of nothing and routes that are never drawn. -/
def gaps (p : Playthrough) (b : Body) : Nat :=
  b.exits.count none + (if b = .scene (.choice []) then 1 else 0) +
  b.chances.countP (¬ p.store.Usable ·)

def errorCount (p : Playthrough) : Nat :=
  (p.project.experiences.map fun e =>
    (e.nodes.map fun node => e.dangling node.body + p.mistakes node.body).sum).sum

def warningCount (p : Playthrough) : Nat :=
  (p.project.experiences.map fun e =>
    (if ∀ node ∈ e.nodes, node.startName? = none then 1 else 0) +
      (e.nodes.map fun node => p.gaps node.body).sum).sum

end Playthrough

def Severity.count (s : Severity) (ds : List Defect) : Nat := ds.countP (·.severity = s)

namespace Severity

variable {s r : Severity}

@[simp] theorem count_nil : s.count [] = 0 := rfl

@[simp] theorem count_cons (d : Defect) (ds : List Defect) :
    s.count (d :: ds) = s.count ds + if d.severity = s then 1 else 0 := by
  simp [count, List.countP_cons]

@[simp] theorem count_append (ds es : List Defect) :
    s.count (ds ++ es) = s.count ds + s.count es := List.countP_append

theorem count_check (c : Prop) [Decidable c] (d : Defect) :
    s.count (if c then [d] else []) = if d.severity = s ∧ c then 1 else 0 := by
  by_cases hc : c <;> simp [hc]

theorem count_map {f : α → Defect} (hf : ∀ a, (f a).severity = r) (items : List α) :
    s.count (items.map f) = if r = s then items.length else 0 := by
  by_cases hs : r = s <;> simp [count, List.countP_map, Function.comp_def, hf, hs]

theorem count_reportIndexed {t : α → Bool} {f : Nat → α → Defect}
    (hf : ∀ i a, (f i a).severity = r) (items : List α) :
    s.count (reportIndexed items t f) = if r = s then items.countP t else 0 := by
  have hfrom : ∀ start, s.count ((items.zipIdx start).filterMap fun x =>
      if t x.1 then some (f x.2 x.1) else none) = if r = s then items.countP t else 0 := by
    induction items with
    | nil => simp
    | cons a rest ih =>
      intro start
      have hrest := ih (start + 1)
      rw [List.zipIdx_cons, List.countP_cons]
      by_cases ht : t a
      · simp only [List.filterMap_cons, ht, if_true, count_cons, hrest, hf]
        split <;> simp
      · simp only [List.filterMap_cons, ht, Bool.false_eq_true, if_false, hrest, Nat.add_zero]
  exact hfrom 0

theorem count_checks {c d : α → Prop} [DecidablePred c] [DecidablePred d] {f g : α → Defect}
    (hf : ∀ a, (f a).severity = r) (hg : ∀ a, (g a).severity = r) (items : List α) :
    s.count (items.flatMap fun a => (if c a then [f a] else []) ++ if d a then [g a] else []) =
      if r = s then items.countP c + items.countP d else 0 := by
  induction items with
  | nil => simp
  | cons a rest ih =>
    rw [List.flatMap_cons, count_append, count_append, count_check, count_check, ih, hf, hg,
      List.countP_cons, List.countP_cons]
    by_cases hs : r = s <;> simp [hs]
    omega

end Severity

section Checks

variable {s : Severity} (t : Variables)

theorem Operation.ofSymbol?_isNone (symbol : String) :
    (ofSymbol? symbol).isNone ↔ symbol ∉ all.map (·.symbol) := by
  simp [ofSymbol?]

theorem Relation.ofSymbol?_isNone (symbol : String) :
    (ofSymbol? symbol).isNone ↔ symbol ∉ all.map (·.symbol) := by
  simp [ofSymbol?]

theorem Assignment.count_defects (items : List Assignment) :
    s.count (items.flatMap (·.defects t)) = if Severity.error = s then
      items.countP (·.target ∉ t.names) + items.countP (·.symbol ∉ Operation.all.map (·.symbol))
    else 0 := by
  have hcount := Severity.count_checks (s := s) (c := (·.target ∉ t.names))
    (d := (·.symbol ∉ Operation.all.map (·.symbol))) (f := (.unknownTarget ·.target))
    (g := (.invalidOperation ·.symbol)) (fun _ => rfl) (fun _ => rfl) items
  simpa only [defects, Operation.ofSymbol?_isNone, ite_not] using hcount

theorem Comparison.count_defects (items : List Comparison) :
    s.count (items.flatMap (·.defects t)) = if Severity.error = s then
      items.countP (·.subject ∉ t.names) + items.countP (·.symbol ∉ Relation.all.map (·.symbol))
    else 0 := by
  have hcount := Severity.count_checks (s := s) (c := (·.subject ∉ t.names))
    (d := (·.symbol ∉ Relation.all.map (·.symbol))) (f := (.unknownSubject ·.subject))
    (g := (.invalidRelation ·.symbol)) (fun _ => rfl) (fun _ => rfl) items
  simpa only [defects, Relation.ofSymbol?_isNone, ite_not] using hcount

end Checks

theorem Node.links_exits (node : Node) : node.links = node.body.exits.filterMap (·) := by
  obtain ⟨i, properties, b⟩ := node
  cases b with
  | scene s =>
    cases s with
    | start _ link | dialog _ _ link | function _ link =>
      cases link <;> simp [links, Scene.links]
    | choice options => simp [links, Scene.links, List.filterMap_map]
    | ending => simp [links, Scene.links]
  | transit t =>
    cases t with
    | update _ link => cases link <;> simp [links, Transit.links]
    | conditional _ fallback =>
      cases fallback <;> simp [links, Transit.links, List.filterMap_map]
    | probability => simp [links, Transit.links, List.filterMap_map]
    | teleport => simp [links, Transit.links]

theorem Body.routes_lead (target : α → NodeId) (routes : List α) :
    (routes.map (some <| target ·)).count none = 0 :=
  List.count_eq_zero.mpr (by simp)

theorem Project.destination_iff {p : Project} {name start : String} :
    p.Destination (name, start) ↔ ∃ e, p.experience name = .ok e ∧ start ∈ e.starts := by
  simp only [Destination, Project.experience_iff, Experience.starts, List.mem_filterMap, and_assoc]

namespace Playthrough

variable {s : Severity} (p : Playthrough)

theorem count_teleport (name start : String) :
    s.count (p.transitDefects (.teleport name start)) =
      if Severity.error = s ∧ ¬ p.project.Destination (name, start) then 1 else 0 := by
  have hd := @Project.destination_iff p.project name start
  cases he : p.project.experience name with
  | error fault => cases s <;> simp [transitDefects, he, hd, Defect.severity]
  | ok e =>
    by_cases hs : start ∈ e.starts <;> cases s <;>
      simp [transitDefects, he, hd, hs, Defect.severity]

theorem count_scene (scene : Scene) :
    s.count scene.defects = if Severity.warning = s then p.gaps (.scene scene) else 0 := by
  cases scene with
  | start _ link | dialog _ _ link | function _ link =>
    cases link <;> cases s <;> simp [Scene.defects, gaps, Defect.severity]
  | choice options =>
    have hopen := Severity.count_reportIndexed (s := s) (t := (·.link.isNone))
      (f := fun i _ => .choiceWithoutLink i) (fun _ _ => rfl) options
    rw [Scene.defects, Severity.count_append, Severity.count_check, hopen]
    cases s with
    | error => simp [Defect.severity]
    | warning =>
      simp [gaps, Defect.severity, List.count, List.countP_map, Function.comp_def, Nat.add_comm]
  | ending => simp [Scene.defects, gaps]

theorem count_transit (work : Transit) :
    s.count (p.transitDefects work) = match s with
      | .error => p.mistakes (.transit work)
      | .warning => p.gaps (.transit work) := by
  cases work with
  | update assignments link =>
    rw [transitDefects, Severity.count_append, Assignment.count_defects]
    cases link <;> cases s <;> simp [mistakes, gaps, Defect.severity]
  | conditional routes fallback =>
    rw [transitDefects, ← List.flatMap_assoc, Severity.count_append, Comparison.count_defects]
    cases fallback <;> cases s <;> simp [mistakes, gaps, Defect.severity, Body.routes_lead]
  | probability routes =>
    have hopen := Severity.count_reportIndexed (s := s) (t := (!·.isUsable p.store))
      (f := fun i r => .unusableWeight i r.weight) (fun _ _ => rfl) routes
    rw [transitDefects, Severity.count_append, Severity.count_check, hopen]
    cases s with
    | error => simp [mistakes, Defect.severity]
    | warning =>
      have hweights : routes.countP (!·.isUsable p.store) = routes.countP (¬ p.store.Usable ·) :=
        List.countP_congr (by simp [← ChanceRoute.isUsable_iff])
      simp [gaps, Defect.severity, Body.routes_lead, hweights]
  | teleport name start =>
    rw [count_teleport]
    cases s <;> simp [mistakes, gaps]

theorem count_missing (e : Experience) (node : Node) :
    s.count ((node.links.filter fun target => (e.node? target).isNone).map .missingNode) =
      if Severity.error = s then e.dangling node.body else 0 := by
  rw [Severity.count_map (f := .missingNode) (r := .error) (fun _ => rfl), Node.links_exits,
    ← List.countP_eq_length_filter, List.countP_filterMap, Experience.dangling]
  congr 1
  refine List.countP_congr fun exit _ => ?_
  cases exit <;> simp [Experience.node?]

theorem count_node (e : Experience) (node : Node) :
    (p.nodeFindings e node).countP (·.severity = s) = match s with
      | .error => e.dangling node.body + p.mistakes node.body
      | .warning => p.gaps node.body := by
  have hdefects : (p.nodeFindings e node).countP (·.severity = s) =
      s.count ((node.links.filter fun target => (e.node? target).isNone).map .missingNode) +
        s.count (p.bodyDefects node.body) := by
    rw [nodeFindings, List.countP_map, ← Severity.count_append]
    rfl
  rw [hdefects, count_missing]
  cases hb : node.body with
  | scene scene =>
    rw [bodyDefects, p.count_scene]
    cases s <;> simp [mistakes]
  | transit work =>
    rw [bodyDefects, p.count_transit]
    cases s <;> simp

theorem count_experience (e : Experience) :
    (p.experienceFindings e).countP (·.severity = s) = match s with
      | .error => (e.nodes.map fun node => e.dangling node.body + p.mistakes node.body).sum
      | .warning => (if ∀ node ∈ e.nodes, node.startName? = none then 1 else 0) +
          (e.nodes.map fun node => p.gaps node.body).sum := by
  have hstart : e.starts.isEmpty ↔ ∀ node ∈ e.nodes, node.startName? = none := by
    simp [Experience.starts, List.filterMap_eq_nil_iff]
  rw [experienceFindings, List.countP_append, List.countP_flatMap]
  simp only [Function.comp_def, count_node, hstart]
  cases s with
  | error => split <;> simp [Finding.severity]
  | warning => congr 1; split <;> simp [Finding.severity]

theorem lint_errors : p.lint.errors.length = p.errorCount := by
  rw [lint, LintReport.ofFindings, List.length_map, ← List.countP_eq_length_filter, findings,
    List.countP_flatMap]
  simp only [Function.comp_def, count_experience, errorCount]

theorem lint_warnings : p.lint.warnings.length = p.warningCount := by
  rw [lint, LintReport.ofFindings, List.length_map, ← List.countP_eq_length_filter, findings,
    List.countP_flatMap]
  simp only [Function.comp_def, count_experience, warningCount]

end Playthrough
end Storyline

import Mathlib.Algebra.Order.BigOperators.Group.List
import Mathlib.Algebra.Order.Group.Nat
import Storyline.Proofs.Cursor
import Storyline.Proofs.Evolution
import Storyline.Proofs.LintCount
import Storyline.Proofs.OperatorFaults
import Storyline.Proofs.Passing

/-! # What a report without errors says

An advance goes on when an assignment or a comparison fails. If the report has no errors they fail
for one reason only, which no report can foresee: a value is no number where one is needed. Names
never change, so the report holds for every later state.
-/
namespace Storyline

namespace Variables

variable {t : Variables}

theorem get_known {name : String} (h : name ∈ t.names) : ∃ value, t.get name = .ok value := by
  obtain ⟨v, hv, rfl⟩ := List.mem_map.mp h
  exact ⟨v.current, get_of_mem hv⟩

theorem assign_cases {a : Assignment} (hn : a.target ∈ t.names)
    (hs : a.symbol ∈ Operation.all.map (·.symbol)) :
    (∃ u, t.assign a = .ok u) ∨
      t.assign a = .error (.invalidOperator a.symbol .notForText) := by
  obtain ⟨v, hv, hname⟩ := List.mem_map.mp hn
  obtain ⟨o, _, hsymbol⟩ := List.mem_map.mp hs
  rw [assign_recognised hv hname hsymbol, ← hsymbol]
  rcases o.apply_cases v.current a.literal (t.substitute a.literal) with ⟨value, hvalue⟩ | htext
  · rw [hvalue]
    exact Or.inl ⟨_, if_pos hn⟩
  · rw [htext]
    exact Or.inr rfl

theorem compare_cases {c : Comparison} (hn : c.subject ∈ t.names)
    (hs : c.symbol ∈ Relation.all.map (·.symbol)) :
    (∃ b, t.compare c = .ok b) ∨
      t.compare c = .error (.invalidOperator c.symbol .needsNumbers) := by
  obtain ⟨v, hv, hname⟩ := List.mem_map.mp hn
  obtain ⟨r, _, hsymbol⟩ := List.mem_map.mp hs
  rw [compare_recognised hv hname hsymbol, ← hsymbol]
  exact r.holds_cases v.current (t.substitute c.literal)

end Variables

namespace Playthrough

variable {p : Playthrough}

theorem mistakes_none {b : Body} (h : p.mistakes b = 0) :
    (∀ a ∈ b.assignments,
      a.target ∈ p.store.names ∧ a.symbol ∈ Operation.all.map (·.symbol)) ∧
    ∀ c ∈ b.comparisons,
      c.subject ∈ p.store.names ∧ c.symbol ∈ Relation.all.map (·.symbol) := by
  simp only [mistakes, Nat.add_eq_zero_iff, List.countP_eq_zero, decide_eq_true_eq,
    Decidable.not_not] at h
  obtain ⟨⟨⟨⟨⟨htarget, hoperation⟩, hsubject⟩, hrelation⟩, _⟩, _⟩ := h
  exact ⟨fun a ha => ⟨htarget a ha, hoperation a ha⟩,
    fun c hc => ⟨hsubject c hc, hrelation c hc⟩⟩

theorem errorless_node (h : p.lint.errors = []) {e : Experience} (he : e ∈ p.project.experiences)
    {node : Node} (hn : node ∈ e.nodes) : p.mistakes node.body = 0 := by
  have hcount : p.errorCount = 0 := by rw [← p.lint_errors, h, List.length_nil]
  rw [errorCount] at hcount
  have hexperience := List.sum_eq_zero_iff.mp hcount _ (List.mem_map_of_mem he)
  have hnode := List.sum_eq_zero_iff.mp hexperience _ (List.mem_map_of_mem hn)
  exact (Nat.add_eq_zero_iff.mp hnode).2

end Playthrough

section Errorless

variable {p : Project} {source : RandomSource} {t : Traversal}

theorem Traversal.Passes.node (ht : Reachable p (.opened t)) {choice : Option UInt64} {c : Place}
    {work : Transit} (h : t.Passes choice c work) :
    c.store.names = p.store.names ∧
      ∃ e ∈ p.experiences, ∃ node ∈ e.nodes, node.body = .transit work := by
  obtain ⟨origin, next, _, k, _, hc, node, hn, hb⟩ := h
  have hp : t.play.project = p := ht.project
  rw [hp] at hc
  have ho : (t.place next).experience ∈ p.experiences := hp ▸ (ht.placed t rfl).opened
  obtain ⟨id, _, hf⟩ := Option.bind_eq_some_iff.mp hn
  exact ⟨hc.evolves.names.trans ht.names, c.experience, hc.opened ho, node,
    (Experience.node_mem hf).1, hb⟩

end Errorless

/-- Without errors in the report, an assignment or a comparison that an advance comes to fails only
for a value that is no number. No name is unknown and no operator is: nothing that was written by
mistake is passed over in silence. -/
theorem errorless_fails_at_text_only (p : Project) (source : RandomSource)
    (herrors : (Playthrough.new p source).lint.errors = []) (t : Traversal)
    (ht : Reachable p (.opened t)) (choice : Option UInt64) (c : Place) :
    (∀ before a after link, t.Passes choice c (.update (before ++ a :: after) link) →
      (∃ u, (before.foldl Variables.attempt c.store).assign a = .ok u) ∨
        (before.foldl Variables.attempt c.store).assign a =
          .error (.invalidOperator a.symbol .notForText)) ∧
    ∀ routes fallback, t.Passes choice c (.conditional routes fallback) →
      ∀ r ∈ routes, ∀ comparison ∈ r.comparisons,
        (∃ b, c.store.compare comparison = .ok b) ∨
          c.store.compare comparison =
            .error (.invalidOperator comparison.symbol .needsNumbers) := by
  constructor
  · intro before a after link h
    obtain ⟨hnames, e, he, node, hn, hb⟩ := h.node ht
    have hnone := Playthrough.mistakes_none (Playthrough.errorless_node herrors he hn)
    obtain ⟨htarget, hsymbol⟩ := hnone.1 a (by simp [hb])
    have hwrites := (writes_attempt c.store before).evolves c.source
    exact Variables.assign_cases (by rw [hwrites.names, hnames]; exact htarget) hsymbol
  · intro routes fallback h r hr comparison hc
    obtain ⟨hnames, e, he, node, hn, hb⟩ := h.node ht
    have hnone := Playthrough.mistakes_none (Playthrough.errorless_node herrors he hn)
    obtain ⟨hsubject, hsymbol⟩ := hnone.2 comparison (by simpa [hb] using ⟨r, hr, hc⟩)
    exact Variables.compare_cases (by rw [hnames]; exact hsubject) hsymbol

def penniless : Traversal where
  play := { Playthrough.new inn (.cycle #[0]) with
    store := inn.store.update fun v => if v.name = "gold" then "none" else v.current }
  experience := cellar
  current := some 0

/-- Five more can be put behind such gold, but it cannot be compared with ten. -/
theorem penniless_fails_at_text_only :
    (Playthrough.new inn (.cycle #[0])).lint.errors = [] ∧ Reachable inn (.opened penniless) ∧
    (∃ c, penniless.Passes none c (.update [⟨"gold", "+", "5"⟩] (some 2)) ∧
      ∃ u, c.store.assign ⟨"gold", "+", "5"⟩ = .ok u) ∧
    ∃ c, penniless.Passes none c (.conditional [⟨[⟨"gold", "≥", "10"⟩], .all, 3⟩] (some 5)) ∧
      c.store.compare ⟨"gold", "≥", "10"⟩ = .error (.invalidOperator "≥" .needsNumbers) := by
  have herrors : (Playthrough.new inn (.cycle #[0])).lint.errors = [] := by decide +kernel
  have hlimit : inn.stepLimit.toNat < 2 ^ 64 - 1 := by decide
  have hr : Reachable inn (.opened penniless) :=
    Reachable.run (fun h => h.returns hlimit) (.fresh (.cycle #[0]))
      [.openExperience "Cellar", .start "Stairs", .set "gold" "none"]
  have hl : penniless.Leaves none 0 (some 1) := ⟨rfl, _, _, rfl, rfl, .start "Stairs" (some 1)⟩
  have hupdate : (penniless.place (some 1)).Meets (.update [⟨"gold", "+", "5"⟩] (some 2)) :=
    ⟨_, rfl, rfl⟩
  have hfirst : penniless.Passes none _ (.update ([] ++ [⟨"gold", "+", "5"⟩]) (some 2)) :=
    ⟨0, some 1, hl, 0, by decide, .nil _, hupdate⟩
  have hsecond : penniless.Passes none _
      (.conditional [⟨[⟨"gold", "≥", "10"⟩], .all, 3⟩] (some 5)) :=
    ⟨0, some 1, hl, 1, by decide, .cons ⟨_, hupdate, .update (writes_attempt _ _)⟩ (.nil _),
      _, rfl, rfl⟩
  have h := errorless_fails_at_text_only inn _ herrors penniless hr none
  have hassign := (h _).1 [] _ [] _ hfirst
  have hcompare := (h _).2 _ _ hsecond _ (List.mem_singleton_self _) _ (List.mem_singleton_self _)
  exact ⟨herrors, hr, ⟨_, hfirst, hassign.resolve_right nofun⟩, _, hsecond,
    hcompare.resolve_left nofun⟩

end Storyline

import Storyline.Lint
import Storyline.Proofs.Advance
import Storyline.Proofs.Edges
import Storyline.Proofs.Occurrence

/-! # What a clean report says

A report is clean exactly when there is no finding at all. Then no link is missing or dangling, no
destination is missing and every weight is usable, so every transit node has somewhere to go.
-/
namespace Storyline

namespace Playthrough

theorem clean_iff {p : Playthrough} : p.lint.isClean ↔ p.findings = [] := by
  simp only [lint, LintReport.isClean, LintReport.ofFindings, List.isEmpty_map, Bool.and_eq_true,
    List.isEmpty_iff, List.filter_eq_nil_iff]
  constructor
  · rintro ⟨he, hw⟩
    refine List.eq_nil_iff_forall_not_mem.mpr fun f hf => ?_
    cases hs : f.severity with
    | error => exact he f hf (by simp [hs])
    | warning => exact hw f hf (by simp [hs])
  · intro h
    simp [h]

theorem clean_node {p : Playthrough} (h : p.lint.isClean) {e : Experience}
    (he : e ∈ p.project.experiences) {node : Node} (hn : node ∈ e.nodes) :
    (∀ target ∈ node.links, (e.node? target).isSome) ∧ p.bodyDefects node.body = [] := by
  have hf := clean_iff.mp h
  have hnode : p.nodeFindings e node = [] := by
    have hx := List.flatMap_eq_nil_iff.mp hf e he
    exact List.flatMap_eq_nil_iff.mp (List.append_eq_nil_iff.mp hx).2 node hn
  obtain ⟨hm, hb⟩ := List.append_eq_nil_iff.mp (List.map_eq_nil_iff.mp hnode)
  refine ⟨fun target ht => ?_, hb⟩
  have hno := List.filter_eq_nil_iff.mp (List.map_eq_nil_iff.mp hm) target ht
  simpa [Option.isSome_iff_ne_none] using hno

end Playthrough

theorem mem_reportIndexed {items : List α} {test : α → Bool} {found : Nat → α → Defect}
    {d : Defect} :
    d ∈ reportIndexed items test found ↔ ∃ i a, items[i]? = some a ∧ test a ∧ found i a = d := by
  unfold reportIndexed
  rw [List.mem_filterMap]
  constructor
  · rintro ⟨⟨a, i⟩, ha, hd⟩
    obtain ⟨ht, hf⟩ := Option.ite_none_right_eq_some.mp hd
    exact ⟨i, a, List.mem_zipIdx_iff_getElem?.mp ha, ht, Option.some.inj hf⟩
  · rintro ⟨i, a, ha, ht, rfl⟩
    exact ⟨(a, i), List.mem_zipIdx_iff_getElem?.mpr ha, if_pos ht⟩

theorem reportIndexed_nil {items : List α} {test : α → Bool} {found : Nat → α → Defect}
    (h : reportIndexed items test found = []) : ∀ a ∈ items, test a = false := by
  intro a ha
  obtain ⟨i, hi⟩ := List.mem_iff_getElem?.mp ha
  refine Bool.eq_false_iff.mpr fun ht => ?_
  have hm : found i a ∈ reportIndexed items test found := mem_reportIndexed.mpr ⟨i, a, hi, ht, rfl⟩
  rw [h] at hm
  exact absurd hm List.not_mem_nil

theorem Scene.Leads.found {choice : Option UInt64} {s : Scene} {next : Option NodeId}
    (h : s.Leads choice next) (hd : s.defects = []) : ∃ id ∈ s.links, next = some id := by
  cases h with
  | start | dialog | function =>
    cases next with
    | none => simp [Scene.defects] at hd
    | some id => exact ⟨id, by simp [Scene.links], rfl⟩
  | @choice options i option hi ho =>
    have hm : option ∈ options := List.mem_of_getElem? ho
    have hlink := reportIndexed_nil (List.append_eq_nil_iff.mp hd).2 option hm
    obtain ⟨id, hid⟩ : ∃ id, option.link = some id := by
      cases hl : option.link with
      | none => simp [hl] at hlink
      | some id => exact ⟨id, rfl⟩
    exact ⟨id, List.mem_filterMap.mpr ⟨option, hm, hid⟩, hid⟩

/-- Weights are told from the names of the variables by their text: no name occurs in one. -/
def Project.PlainWeights (p : Project) : Prop :=
  ∀ e ∈ p.experiences, ∀ node ∈ e.nodes, ∀ routes, node.body = .transit (.probability routes) →
    ∀ r ∈ routes, Variables.Absent (p.document.declared.map (·.name)) r.weight

theorem Variables.weight_plain {t u : Variables} (hn : t.names = u.names) {r : ChanceRoute}
    (h : Absent u.names r.weight) : t.weight? r = u.weight? r := by
  unfold weight?
  rw [substitute_absent h, substitute_absent (hn ▸ h)]

theorem Project.PlainWeights.weight {p : Project} (h : p.PlainWeights) {t : Variables}
    (ht : t.names = p.store.names) {e : Experience} (he : e ∈ p.experiences) {node : Node}
    (hn : node ∈ e.nodes) {routes : List ChanceRoute}
    (hb : node.body = .transit (.probability routes)) {r : ChanceRoute} (hr : r ∈ routes) :
    t.weight? r = p.store.weight? r := by
  refine Variables.weight_plain ht ?_
  rw [p.store_names]
  exact h e he node hn routes hb r hr

end Storyline

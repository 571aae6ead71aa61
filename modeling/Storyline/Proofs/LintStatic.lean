import Storyline.Proofs.Evolution
import Storyline.Proofs.LintClean
import Storyline.Proofs.LintCount

/-! # What play changes in a report

A report is made on the values that the variables have at the time, so it need not be the report of
the project as it was loaded. One thing in it depends on the values: which weights can be drawn by.
All else stays, whatever was played, and a reset brings the loaded report back.
-/
namespace Storyline

def Defect.ofValues : Defect → Bool
  | .unusableWeight .. => true
  | _ => false

def Finding.ofValues : Finding → Bool
  | .noStart _ => false
  | .inNode _ _ _ defect => defect.ofValues

theorem Finding.error_static {f : Finding} (h : f.severity = .error) : f.ofValues = false := by
  cases f with
  | noStart => rfl
  | inNode id kind experience defect =>
    cases defect with
    | unusableWeight => cases h
    | _ => rfl

theorem Variables.not_usable_iff {t : Variables} {r : ChanceRoute} :
    ¬ t.Usable r ↔ t.weight? r = none := by
  rw [usable_iff, Option.not_isSome_iff_eq_none]

theorem ChanceRoute.not_isUsable_iff {t : Variables} {r : ChanceRoute} :
    (!r.isUsable t) ↔ ¬ t.Usable r := by
  rw [Bool.not_eq_true', Bool.eq_false_iff, Ne, isUsable_iff]

theorem Variables.weighted_eq_nil_iff {t : Variables} {routes : List ChanceRoute} :
    t.weighted routes = [] ↔ ∀ r ∈ routes, ¬ t.Usable r := by
  simp [weighted, List.filterMap_eq_nil_iff, not_usable_iff]

theorem reportIndexed_congr {items : List α} {test other : α → Bool} {found : Nat → α → Defect}
    (h : ∀ a ∈ items, test a = other a) :
    reportIndexed items test found = reportIndexed items other found := by
  refine List.filterMap_congr fun x hx => ?_
  dsimp only
  rw [h x.1 (List.fst_mem_of_mem_zipIdx hx)]

namespace Playthrough

/-- The report has a finding of this defect in a node of an experience. -/
def Reports (p : Playthrough) (e : Experience) (node : Node) (d : Defect) : Prop :=
  .inNode node.id node.kind e.name d ∈ p.findings

section Reports

variable {p : Playthrough} {e : Experience} {node : Node}

/-- Names and ids are distinct, so a finding is made in the node that it names. -/
theorem reports_iff (he : e ∈ p.project.experiences) (hn : node ∈ e.nodes) {d : Defect} :
    p.Reports e node d ↔
      (∃ target ∈ node.links, (e.node? target).isNone ∧ .missingNode target = d) ∨
        d ∈ p.bodyDefects node.body := by
  constructor
  · intro h
    obtain ⟨x, hx, hf⟩ := List.mem_flatMap.mp h
    rcases List.mem_append.mp hf with hs | hf
    · split at hs <;> simp at hs
    obtain ⟨other, ho, hf⟩ := List.mem_flatMap.mp hf
    obtain ⟨c, hc, heq⟩ := List.mem_map.mp hf
    obtain ⟨hid, _, hname, rfl⟩ := Finding.inNode.inj heq
    obtain rfl := List.inj_on_of_nodup_map p.project.experiences_distinct hx he hname
    obtain rfl := List.inj_on_of_nodup_map (p.project.nodes_distinct x he) ho hn hid
    simpa [and_assoc] using hc
  · intro h
    refine List.mem_flatMap.mpr ⟨e, he, List.mem_append.mpr (Or.inr ?_)⟩
    refine List.mem_flatMap.mpr ⟨node, hn, List.mem_map.mpr ⟨d, ?_, rfl⟩⟩
    simpa [and_assoc] using h

variable {routes : List ChanceRoute}

theorem reports_weight_iff (he : e ∈ p.project.experiences) (hn : node ∈ e.nodes)
    (hb : node.body = .transit (.probability routes)) {i : Nat} {r : ChanceRoute}
    (hr : routes[i]? = some r) :
    p.Reports e node (.unusableWeight i r.weight) ↔ ¬ p.store.Usable r := by
  rw [reports_iff he hn, hb, bodyDefects, transitDefects, List.mem_append, mem_reportIndexed]
  constructor
  · rintro (⟨_, _, _, hd⟩ | hd | ⟨j, a, ha, ht, hd⟩)
    · cases hd
    · split at hd <;> simp at hd
    · obtain ⟨rfl, _⟩ := Defect.unusableWeight.inj hd
      cases ha.symm.trans hr
      exact ChanceRoute.not_isUsable_iff.mp ht
  · intro h
    exact Or.inr (Or.inr ⟨i, r, hr, ChanceRoute.not_isUsable_iff.mpr h, rfl⟩)

theorem reports_noRoutes_iff (he : e ∈ p.project.experiences) (hn : node ∈ e.nodes)
    (hb : node.body = .transit (.probability routes)) :
    p.Reports e node .noRoutes ↔ routes = [] := by
  rw [reports_iff he hn, hb, bodyDefects, transitDefects, List.mem_append, mem_reportIndexed]
  simp

end Reports

/-! Two states of one playthrough, `p` and `q`. -/

section Static

variable {p q : Playthrough} (hp : q.project = p.project) (hn : q.store.names = p.store.names)

include hp hn

theorem transitDefects_congr (work : Transit)
    (hw : ∀ r ∈ (Body.transit work).chances, q.store.Usable r ↔ p.store.Usable r) :
    q.transitDefects work = p.transitDefects work := by
  have hassign : ∀ a : Assignment, a.defects q.store = a.defects p.store := by
    intro a
    simp only [Assignment.defects, hn]
  have hcompare : ∀ c : Comparison, c.defects q.store = c.defects p.store := by
    intro c
    simp only [Comparison.defects, hn]
  cases work with
  | update assignments link => simp only [transitDefects, hassign]
  | conditional routes fallback => simp only [transitDefects, hcompare]
  | teleport name start => simp only [transitDefects, hp]
  | probability routes =>
    have htest : ∀ r ∈ routes, (!r.isUsable q.store) = !r.isUsable p.store := by
      intro r hr
      rw [Bool.eq_iff_iff, ChanceRoute.not_isUsable_iff, ChanceRoute.not_isUsable_iff, hw r hr]
    rw [transitDefects, transitDefects, reportIndexed_congr htest]

theorem transitDefects_static (work : Transit) :
    (q.transitDefects work).filter (!·.ofValues) =
      (p.transitDefects work).filter (!·.ofValues) := by
  cases work with
  | probability routes =>
    have hnone : ∀ t : Variables, (reportIndexed routes (!·.isUsable t)
        fun i r => .unusableWeight i r.weight).filter (!·.ofValues) = [] := by
      intro t
      refine List.filter_eq_nil_iff.mpr fun d hd => ?_
      obtain ⟨_, _, _, _, rfl⟩ := mem_reportIndexed.mp hd
      simp [Defect.ofValues]
    rw [transitDefects, transitDefects, List.filter_append, List.filter_append, hnone, hnone]
  | update | conditional | teleport =>
    rw [transitDefects_congr hp hn _ (by simp)]

theorem bodyDefects_static (b : Body) :
    (q.bodyDefects b).filter (!·.ofValues) = (p.bodyDefects b).filter (!·.ofValues) := by
  cases b with
  | scene s => rfl
  | transit work => exact transitDefects_static hp hn work

theorem findings_static :
    q.findings.filter (!·.ofValues) = p.findings.filter (!·.ofValues) := by
  have hnode : ∀ e node, (q.nodeFindings e node).filter (!·.ofValues) =
      (p.nodeFindings e node).filter (!·.ofValues) := by
    intro e node
    have hb := bodyDefects_static hp hn node.body
    simp only [nodeFindings, List.filter_map, Function.comp_def, Finding.ofValues,
      List.filter_append, hb]
  simp only [findings, List.filter_flatMap, experienceFindings, List.filter_append, hnode, hp]

theorem errors_static : q.lint.errors = p.lint.errors := by
  have herrors : ∀ l : List Finding, l.filter (·.severity = .error) =
      (l.filter (!·.ofValues)).filter (·.severity = .error) := by
    intro l
    rw [List.filter_filter]
    refine List.filter_congr fun f _ => ?_
    by_cases hf : f.severity = .error
    · simp [hf, Finding.error_static hf]
    · simp [hf]
  simp only [lint, LintReport.ofFindings]
  rw [herrors q.findings, herrors p.findings, findings_static hp hn]

end Static
end Playthrough

/-- The same weights of the project can be drawn by, under either values of the variables. -/
def Project.JudgesAlike (p : Project) (t u : Variables) : Prop :=
  ∀ e ∈ p.experiences, ∀ node ∈ e.nodes, ∀ r ∈ node.body.chances, t.Usable r ↔ u.Usable r

namespace Playthrough

variable {p q : Playthrough}

theorem findings_eq_iff (hp : q.project = p.project) (hn : q.store.names = p.store.names) :
    q.findings = p.findings ↔ p.project.JudgesAlike q.store p.store := by
  constructor
  · intro h e he node hnode r hr
    cases hb : node.body with
    | scene s => simp [hb] at hr
    | transit work =>
      cases work with
      | update | conditional | teleport => simp [hb] at hr
      | probability routes =>
        have hm : r ∈ routes := by simpa [hb] using hr
        obtain ⟨i, hi⟩ := List.mem_iff_getElem?.mp hm
        have hq := reports_weight_iff (p := q) (hp ▸ he) hnode hb hi
        have hsame : q.Reports e node (.unusableWeight i r.weight) ↔
            p.Reports e node (.unusableWeight i r.weight) := by
          unfold Reports
          rw [h]
        exact not_iff_not.mp (hq.symm.trans (hsame.trans (reports_weight_iff he hnode hb hi)))
  · intro h
    have hnode : ∀ e ∈ p.project.experiences, ∀ node ∈ e.nodes,
        q.nodeFindings e node = p.nodeFindings e node := by
      intro e he node hnode
      have hbody : q.bodyDefects node.body = p.bodyDefects node.body := by
        cases hb : node.body with
        | scene s => rfl
        | transit work => exact transitDefects_congr hp hn work (hb ▸ h e he node hnode)
      simp only [nodeFindings, hbody]
    unfold findings
    rw [hp]
    refine List.flatMap_congr fun e he => ?_
    simp only [experienceFindings, List.flatMap_congr (hnode e he)]

theorem lint_of_store (hp : q.project = p.project) (hs : q.store = p.store) : q.lint = p.lint := by
  have hn : q.store.names = p.store.names := by rw [hs]
  have hf : q.findings = p.findings := by
    refine (findings_eq_iff hp hn).mpr ?_
    intro _ _ _ _ _ _
    rw [hs]
  rw [lint, lint, hf]

end Playthrough

/-- Whatever is played from a fresh start, the errors of the report stay, and so does every finding
that is not told from the values of the variables. So the findings are those of the loaded project
exactly while the same weights can be drawn by, and a reset brings the loaded report back. -/
theorem report_changes_with_weights (p : Project) (source : RandomSource)
    (commands : List Command) :
    let loaded := Playthrough.new p source
    let s := ((Session.closed loaded).run commands).2
    s.play.lint.errors = loaded.lint.errors ∧
    s.play.findings.filter (!·.ofValues) = loaded.findings.filter (!·.ofValues) ∧
    (s.play.findings = loaded.findings ↔ p.JudgesAlike s.play.store p.store) ∧
    (s.perform .reset).2.play.lint = loaded.lint := by
  intro loaded s
  obtain ⟨hp, he⟩ : s.play.project = p ∧ Evolves p.store source s.play.store s.play.source :=
    (Session.closed loaded).run_evolves commands
  have hn : s.play.store.names = loaded.store.names := he.names
  refine ⟨Playthrough.errors_static hp hn, Playthrough.findings_static hp hn,
    Playthrough.findings_eq_iff hp hn, ?_⟩
  have hplay : (s.perform .reset).2.play = { s.play with store := s.play.store.reset } :=
    Session.setPlay_play s _
  refine Playthrough.lint_of_store ?_ ?_
  · rw [hplay]
    exact hp
  · rw [hplay]
    exact he.reset.trans p.store_reset

/-- The weight of the only route is the player's luck. -/
def tavern : Project where
  document := ⟨[⟨"Tavern", [⟨0, [], .scene (.start "Door" (some 1))⟩,
    ⟨1, [], .transit (.probability [⟨"luck", 2⟩])⟩, ⟨2, [], .scene .ending⟩]⟩],
    [⟨"luck", "1"⟩], []⟩
  experiences_distinct := by decide
  nodes_distinct := by decide
  variables_distinct := by decide
  stepLimit := Project.defaultStepLimit

/-- Clean as it was loaded, the tavern has a warning once the luck is no number. -/
theorem tavern_report_changes :
    let loaded := Playthrough.new tavern (.cycle #[0])
    let s := ((Session.closed loaded).run [.set "luck" "none"]).2
    s.play.lint ≠ loaded.lint ∧ loaded.lint = ⟨[], []⟩ ∧
    s.play.lint = ⟨[], ["Node 1 (probability) in 'Tavern' route 0 weight 'luck' " ++
      "does not parse with loaded values"]⟩ := by
  decide +kernel

end Storyline

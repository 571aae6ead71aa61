import Storyline.Proofs.LintStatic
import Storyline.Proofs.Passing

/-! # The routes that are reported are those that are not drawn

The report and the draw both judge the weights of a probability node. In one state they agree: a
draw leaves out the routes that are reported, so an advance that comes to the node goes on along one
that is not, and breaks off only where there is none.
-/
namespace Storyline

namespace Variables

variable {t : Variables} {routes : List ChanceRoute}

/-- A draw weighs the routes as if the one with this index were not among them. -/
def LeavesOut (t : Variables) (routes : List ChanceRoute) (index : Nat) : Prop :=
  t.weighted (routes.eraseIdx index) = t.weighted routes

theorem weighted_append (before after : List ChanceRoute) :
    t.weighted (before ++ after) = t.weighted before ++ t.weighted after :=
  List.filterMap_append

theorem weighted_cons (r : ChanceRoute) (rest : List ChanceRoute) :
    t.weighted (r :: rest) =
      ((t.weight? r).map fun w => (w, r.target)).toList ++ t.weighted rest := by
  cases h : t.weight? r <;> simp [weighted, h]

theorem leavesOut_iff {i : Nat} {r : ChanceRoute} (hr : routes[i]? = some r) :
    t.LeavesOut routes i ↔ ¬ t.Usable r := by
  obtain ⟨hi, rfl⟩ := List.getElem?_eq_some_iff.mp hr
  have hsplit : routes.take i ++ routes[i] :: routes.drop (i + 1) = routes := by simp
  have hall : t.weighted routes =
      t.weighted (routes.take i ++ routes[i] :: routes.drop (i + 1)) := by
    rw [hsplit]
  rw [not_usable_iff, LeavesOut, hall, List.eraseIdx_eq_take_drop_succ, weighted_append,
    weighted_append, weighted_cons]
  cases t.weight? routes[i] <;> simp

end Variables

section Draw

variable {t : Variables} {routes : List ChanceRoute}

theorem drawRoute_fails (h : ∀ r ∈ routes, ¬ t.Usable r) (source : RandomSource) :
    drawRoute t routes source = (.error .noUsableRoute, source) := by
  rcases drawRoute_cases t routes source with ⟨_, hd⟩ | ⟨w, id, hm, _⟩
  · exact hd
  · rw [Variables.weighted_eq_nil_iff.mpr h] at hm
    exact absurd hm List.not_mem_nil

theorem drawRoute_succeeds {r : ChanceRoute} (hr : r ∈ routes) (hu : t.Usable r)
    (source : RandomSource) : ∃ (i : Nat) (drawn : ChanceRoute),
      routes[i]? = some drawn ∧ t.Usable drawn ∧
        drawRoute t routes source = (.ok drawn.target, source.draw.2) := by
  rcases drawRoute_cases t routes source with ⟨hnone, _⟩ | ⟨w, id, hm, hd⟩
  · exact absurd hu (Variables.weighted_eq_nil_iff.mp hnone r hr)
  · obtain ⟨drawn, hdrawn, rfl, hw⟩ := Variables.weighted_target hm
    obtain ⟨i, hi⟩ := List.mem_iff_getElem?.mp hdrawn
    exact ⟨i, drawn, hi, Variables.usable_iff.mpr (by simp [hw]), hd⟩

end Draw

namespace Playthrough

/-- The report leaves no route to a probability node: it finds fault with each of them, or says that
there are none. -/
def ReportsAll (p : Playthrough) (e : Experience) (node : Node) (routes : List ChanceRoute) :
    Prop :=
  (∀ i r, routes[i]? = some r → p.Reports e node (.unusableWeight i r.weight)) ∨
    p.Reports e node .noRoutes

variable {p : Playthrough} {e : Experience} {node : Node} {routes : List ChanceRoute}

theorem reportsAll_iff (he : e ∈ p.project.experiences) (hn : node ∈ e.nodes)
    (hb : node.body = .transit (.probability routes)) :
    p.ReportsAll e node routes ↔ ∀ r ∈ routes, ¬ p.store.Usable r := by
  constructor
  · rintro (hall | hnone) r hr
    · obtain ⟨i, hi⟩ := List.mem_iff_getElem?.mp hr
      exact (reports_weight_iff he hn hb hi).mp (hall i r hi)
    · rw [(reports_noRoutes_iff he hn hb).mp hnone] at hr
      exact absurd hr List.not_mem_nil
  · intro h
    refine Or.inl fun i r hi => ?_
    exact (reports_weight_iff he hn hb hi).mpr (h r (List.mem_of_getElem? hi))

theorem Reports.warned {d : Defect} (h : p.Reports e node d) (hd : d.severity = .warning) :
    (Finding.inNode node.id node.kind e.name d).text ∈ p.lint.warnings := by
  refine List.mem_map_of_mem (List.mem_filter.mpr ⟨h, ?_⟩)
  exact decide_eq_true hd

end Playthrough

/-- In every state the report warns of just those routes of a probability node that a draw leaves
out. An advance that does the work of the node in that state finds no route exactly when the report
has all of them, or says that there are none, and then breaks off; otherwise it goes on along a
route that the report does not have. -/
theorem report_agrees_with_draw (play : Playthrough) (e : Experience)
    (he : e ∈ play.project.experiences) (node : Node) (hn : node ∈ e.nodes)
    (routes : List ChanceRoute) (hb : node.body = .transit (.probability routes)) :
    (∀ (i : Nat) (r : ChanceRoute), routes[i]? = some r →
      (play.Reports e node (.unusableWeight i r.weight) ↔ play.store.LeavesOut routes i) ∧
      (play.store.LeavesOut routes i →
        (Finding.inNode node.id node.kind e.name (.unusableWeight i r.weight)).text ∈
          play.lint.warnings)) ∧
    ∀ (t : Traversal) (choice : Option UInt64) (origin : NodeId) (next : Option NodeId) (k : Nat)
      (c : Place), t.Leaves choice origin next →
      Chain t.play.project k (t.place next) c → k < t.play.project.stepLimit.toNat →
      (t.arrive c t.current).play = play → c.experience = e → c.node? = some node →
      ((drawRoute c.store routes c.source).1 = .error .noUsableRoute ↔
        play.ReportsAll e node routes) ∧
      (play.ReportsAll e node routes →
        t.advance choice = (.error (.brokenChain origin), t.arrive c none)) ∧
      (¬ play.ReportsAll e node routes → ∃ (i : Nat) (r : ChanceRoute) (source : RandomSource),
        routes[i]? = some r ∧ ¬ play.Reports e node (.unusableWeight i r.weight) ∧
        drawRoute c.store routes c.source = (.ok r.target, source) ∧
        t.advance choice = Traversal.settle origin
          (Traversal.walk (t.play.project.stepLimit.toNat - (k + 1)) (some r.target)
            (t.arrive { c with source } t.current))) := by
  constructor
  · intro i r hi
    have hreport := Playthrough.reports_weight_iff he hn hb hi
    have hleft := Variables.leavesOut_iff (t := play.store) hi
    refine ⟨hreport.trans hleft.symm, fun h => ?_⟩
    exact Playthrough.Reports.warned (hreport.mpr (hleft.mp h)) rfl
  · intro t choice origin next k c hl hc hk hplay _ hnode
    subst hplay
    have hm : c.Meets (.probability routes) := ⟨node, hnode, hb⟩
    have hall := Playthrough.reportsAll_iff he hn hb
    by_cases hu : ∃ r ∈ routes, c.store.Usable r
    · obtain ⟨r, hr, hu⟩ := hu
      obtain ⟨i, drawn, hi, hdrawn, hdraw⟩ := drawRoute_succeeds hr hu c.source
      have hsome : ¬ (t.arrive c t.current).play.ReportsAll e node routes := fun h =>
        hall.mp h r hr hu
      have hfree := mt (Playthrough.reports_weight_iff he hn hb hi).mp (not_not.mpr hdrawn)
      refine ⟨?_, fun h => absurd h hsome, fun _ => ?_⟩
      · simp [hdraw, hsome]
      · exact ⟨i, drawn, _, hi, hfree, hdraw, Traversal.advance_effect hl hc hk hm (.drawn hdraw)⟩
    · have hnone : ∀ r ∈ routes, ¬ c.store.Usable r := fun r hr h => hu ⟨r, hr, h⟩
      have hdraw := drawRoute_fails hnone c.source
      have hreports : (t.arrive c t.current).play.ReportsAll e node routes := hall.mpr hnone
      have hbroken := Traversal.advance_effect hl hc hk hm (.undrawn (by rw [hdraw]))
      rw [Traversal.walk_nowhere _ rfl] at hbroken
      refine ⟨?_, fun _ => hbroken, fun h => absurd hreports h⟩
      simp [hdraw, hreports]

def fork : Node := ⟨1, [], .transit (.probability [⟨"luck", 2⟩, ⟨"-luck", 3⟩])⟩

def crossing : Experience :=
  ⟨"Crossing", [⟨0, [], .scene (.start "Sign" (some 1))⟩, fork, ⟨2, [], .scene .ending⟩,
    ⟨3, [], .scene .ending⟩]⟩

def journey : Project where
  document := ⟨[crossing], [⟨"luck", "1"⟩], []⟩
  experiences_distinct := by decide
  nodes_distinct := by decide
  variables_distinct := by decide
  stepLimit := 1

def atSign (luck : String) : Traversal where
  play := { Playthrough.new journey (.cycle #[0]) with store := journey.store.update fun _ => luck }
  experience := crossing
  current := some 0

/-- With a luck of minus zero the first route is drawn and the second reported. With a luck that is
no number both are reported, and the fork is the end of the way. -/
theorem fork_report_agrees_with_draw :
    (atSign "-0").play.Reports crossing fork (.unusableWeight 1 "-luck") ∧
    (atSign "-0").play.store.LeavesOut [⟨"luck", 2⟩, ⟨"-luck", 3⟩] 1 ∧
    ¬ (atSign "-0").play.Reports crossing fork (.unusableWeight 0 "luck") ∧
    ¬ (atSign "-0").play.store.LeavesOut [⟨"luck", 2⟩, ⟨"-luck", 3⟩] 0 ∧
    (∃ source, (atSign "-0").advance none = Traversal.settle 0
      (Traversal.walk 0 (some 2) { atSign "-0" with play.source := source })) ∧
    (atSign "none").play.ReportsAll crossing fork [⟨"luck", 2⟩, ⟨"-luck", 3⟩] ∧
    ((atSign "none").advance none).1 = .error (.brokenChain 0) := by
  have hleaves : ∀ luck, (atSign luck).Leaves none 0 (some 1) := fun luck =>
    ⟨rfl, _, _, rfl, rfl, .start "Sign" (some 1)⟩
  have h : ∀ luck, _ := fun luck => report_agrees_with_draw (atSign luck).play crossing
    (List.mem_singleton_self _) fork (List.mem_cons_of_mem _ List.mem_cons_self) _ rfl
  have hcomes : ∀ luck, _ := fun luck => (h luck).2 (atSign luck) none 0 (some 1) 0 _
    (hleaves luck) (.nil _) Nat.one_pos rfl rfl rfl
  have hsecond : (atSign "-0").play.Reports crossing fork (.unusableWeight 1 "-luck") := by
    unfold Playthrough.Reports
    decide +kernel
  have hfirst : ¬ (atSign "-0").play.Reports crossing fork (.unusableWeight 0 "luck") := by
    unfold Playthrough.Reports
    decide +kernel
  have hnone : (drawRoute (atSign "none").play.store [⟨"luck", 2⟩, ⟨"-luck", 3⟩]
      (atSign "none").play.source).1 = .error .noUsableRoute := by decide +kernel
  have hall := (hcomes "none").1.mp hnone
  have hdrawn : (drawRoute (atSign "-0").play.store [⟨"luck", 2⟩, ⟨"-luck", 3⟩]
      (atSign "-0").play.source).1 ≠ .error .noUsableRoute := by decide +kernel
  obtain ⟨i, r, source, hi, hfree, _, hadvance⟩ :=
    (hcomes "-0").2.2 (mt (hcomes "-0").1.mpr hdrawn)
  have hr : r.target = 2 := by
    match i, hi with
    | 0, rfl => rfl
    | 1, rfl => exact absurd hsecond hfree
  rw [hr] at hadvance
  refine ⟨hsecond, ((h "-0").1 1 _ rfl).1.mp hsecond, hfirst, ?_, ⟨source, hadvance⟩, hall, ?_⟩
  · exact mt ((h "-0").1 0 _ rfl).1.mpr hfirst
  · rw [(hcomes "none").2.1 hall]

end Storyline

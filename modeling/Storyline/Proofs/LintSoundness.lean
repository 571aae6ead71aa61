import Storyline.Proofs.Cursor
import Storyline.Proofs.Evolution
import Storyline.Proofs.LintClean
import Storyline.Proofs.LintCount
import Storyline.Proofs.ShownNode

/-! # Progress under a clean report

What a walk keeps in a project with a clean report is that there is a node to go to. The report is
made on the loaded values, so it says something of later states only where those do not matter:
links, lookups, and weights in which no variable occurs.
-/
namespace Storyline

theorem Effect.leads {p : Project} {a b : Place} {work : Transit} (h : Effect p a work b)
    {source : RandomSource} (hd : (Playthrough.new p source).transitDefects work = [])
    (hw : ∀ routes, work = .probability routes →
      ∀ r ∈ routes, a.store.weight? r = p.store.weight? r) : ∃ id, b.next = some id := by
  cases h with
  | @update assignments link store hs =>
    cases link with
    | none => simp [Playthrough.transitDefects] at hd
    | some id => exact ⟨id, rfl⟩
  | conditional routes fallback =>
    cases fallback with
    | none => simp [Playthrough.transitDefects] at hd
    | some id => exact Variables.route_found rfl
  | drawn => exact ⟨_, rfl⟩
  | @undrawn routes fault hf =>
    obtain ⟨hne, hi⟩ := List.append_eq_nil_iff.mp hd
    cases routes with
    | nil => simp at hne
    | cons r rest =>
      have hr : (!r.isUsable p.store) = false := reportIndexed_nil hi r List.mem_cons_self
      have hs : (a.store.weight? r).isSome := by
        rw [hw _ rfl r List.mem_cons_self, ← ChanceRoute.isUsable_eq]
        simpa using hr
      have hsome := Variables.weighted_ne_nil (List.mem_cons_self (l := rest)) hs
      exact absurd (drawRoute_failed hf).1 hsome
  | @teleport name start e he =>
    have hp : (Playthrough.new p source).project.experience name = .ok e := he
    have hs : start ∈ e.starts := by
      by_contra hs
      simp [Playthrough.transitDefects, hp, hs] at hd
    obtain ⟨node, hn⟩ := Option.isSome_iff_exists.mp (Experience.start_found_iff.mpr hs)
    exact ⟨node.id, by simp [hn]⟩
  | @stranded name start fault he =>
    have hp : (Playthrough.new p source).project.experience name = .error fault := he
    simp [Playthrough.transitDefects, hp] at hd

structure Place.Going (p : Project) (c : Place) : Prop where
  opened : c.experience ∈ p.experiences
  names : c.store.names = p.store.names
  found : ∃ node, c.node? = some node

section Clean

variable {p : Project} {source : RandomSource}

theorem Playthrough.clean_link (hclean : (Playthrough.new p source).lint.isClean) {c : Place}
    {node : Node} {id : NodeId} (hc : c.experience ∈ p.experiences)
    (hn : node ∈ c.experience.nodes) (hid : id ∈ node.links) (hnext : c.next = some id) :
    ∃ n, c.node? = some n := by
  have hs := (clean_node hclean hc hn).1 id hid
  obtain ⟨n, hf⟩ := Option.isSome_iff_exists.mp hs
  exact ⟨n, by simp [Place.node?, hnext, hf]⟩

theorem Step.going (hclean : (Playthrough.new p source).lint.isClean) (hplain : p.PlainWeights)
    {a b : Place} (hs : Step p a b) (ha : a.Going p) : b.Going p := by
  obtain ⟨work, hm, he⟩ := hs
  obtain ⟨node, hn, hb⟩ := hm
  obtain ⟨i, _, hf⟩ := Option.bind_eq_some_iff.mp hn
  have hnode : node ∈ a.experience.nodes := (Experience.node_mem hf).1
  have hd := (Playthrough.clean_node hclean ha.opened hnode).2
  rw [hb] at hd
  have hweights : ∀ routes, work = .probability routes →
      ∀ r ∈ routes, a.store.weight? r = p.store.weight? r := by
    rintro routes rfl r hr
    exact hplain.weight ha.names ha.opened hnode hb hr
  obtain ⟨id, hid⟩ := he.leads hd hweights
  refine ⟨he.opened ha.opened, he.evolves.names.trans ha.names, ?_⟩
  rcases he.edge with ⟨hx, hlink⟩ | ⟨name, start, e, _, hexp, rfl, hnext⟩
  · have hlinks : id ∈ node.links := by simpa [Node.links, hb] using hlink id hid
    exact Playthrough.clean_link hclean (hx ▸ ha.opened) (hx ▸ hnode) hlinks hid
  · obtain ⟨first, hfirst, rfl⟩ := Option.map_eq_some_iff.mp (hnext.symm.trans hid)
    have hr := Project.start_resolves (Project.experience_mem hexp) hfirst
    exact ⟨first, by simp [Place.node?, hid, hr]⟩

theorem Chain.going (hclean : (Playthrough.new p source).lint.isClean) (hplain : p.PlainWeights)
    {k : Nat} {a c : Place} (h : Chain p k a c) (ha : a.Going p) : c.Going p := by
  induction h with
  | nil => exact ha
  | cons hs _ ih => exact ih (hs.going hclean hplain ha)

theorem Traversal.Leaves.going (hclean : (Playthrough.new p source).lint.isClean) {t : Traversal}
    (ho : t.experience ∈ p.experiences) (hn : t.play.store.names = p.store.names)
    {choice : Option UInt64} {origin : NodeId} {next : Option NodeId}
    (h : t.Leaves choice origin next) : (t.place next).Going p := by
  obtain ⟨_, node, s, hf, hb, hl⟩ := h
  have hnode : node ∈ t.experience.nodes := (Experience.node_mem hf).1
  have hd := (Playthrough.clean_node hclean ho hnode).2
  rw [hb] at hd
  obtain ⟨id, hid, rfl⟩ := hl.found hd
  have hlinks : id ∈ node.links := by simpa [Node.links, hb] using hid
  have hc : (t.place (some id)).experience ∈ p.experiences := ho
  exact ⟨ho, hn, Playthrough.clean_link hclean hc hnode hlinks rfl⟩

/-- What an advance can answer from a set cursor when no chain breaks off. The last answer is none
to the host: the greatest limit is never exceeded, and the count of steps overflows instead. -/
inductive Traversal.Progressed (limit : UInt64) (choice : Option UInt64) :
    Except Fault Node → Prop where
  | scene {node} : node.isDisplayable → Progressed limit choice (.ok node)
  | refused (available) : Progressed limit choice (.error (.invalidChoice choice available))
  | ended : Progressed limit choice (.error (.cannotAdvance .ending))
  | exceeded : Progressed limit choice (.error (.stepLimit limit))
  | overflowed : limit.toNat = 2 ^ 64 - 1 → Progressed limit choice (.error .stepOverflow)

theorem Traversal.Advanced.progress (hclean : (Playthrough.new p source).lint.isClean)
    (hplain : p.PlainWeights) {t u : Traversal} {choice : Option UInt64} {r : Except Fault Node}
    (h : Advanced t choice r u) (hp : t.play.project = p) (ht : t.Placed)
    (hn : t.play.store.names = p.store.names) :
    (t.current = none ∧ r = .error .noCurrentNode) ∨ Progressed p.stepLimit choice r := by
  subst hp
  cases h with
  | unset hc => exact Or.inl ⟨hc, rfl⟩
  | lost hc hnone =>
    obtain ⟨node, hf, _⟩ := ht.resting _ hc
    cases hnone.symm.trans hf
  | stuck hc hf hb =>
    obtain ⟨node, hf', hd⟩ := ht.resting _ hc
    cases hf.symm.trans hf'
    exact absurd hd (Node.not_displayable hb)
  | refused => exact Or.inr (.refused _)
  | ended => exact Or.inr .ended
  | landed _ he =>
    obtain ⟨_, _, _, _, hd⟩ := ends_scene_iff.mp he
    exact Or.inr (.scene (by simpa using hd))
  | broke hl he =>
    obtain ⟨_, _, hchain, hnone⟩ := ends_nowhere_iff.mp he
    have hg := hchain.going hclean hplain (hl.going hclean ht.opened hn)
    obtain ⟨node, hf⟩ := hg.found
    cases hnone.symm.trans hf
  | exceeded => exact Or.inr .exceeded
  | overflowed _ _ hmax => exact Or.inr (.overflowed hmax)

end Clean

/-- In a project with a clean report and plain weights no chain breaks off, whatever was played and
written before: an advance from a set cursor comes to a scene, refuses the choice or the end node,
or reaches the limit. -/
theorem clean_never_breaks (p : Project) (source : RandomSource)
    (hclean : (Playthrough.new p source).lint.isClean) (hplain : p.PlainWeights) (t : Traversal)
    (ht : Reachable p (.opened t)) (choice : Option UInt64) :
    (∀ id, (t.advance choice).1 ≠ .error (.brokenChain id)) ∧
    (t.current.isSome → Traversal.Progressed p.stepLimit choice (t.advance choice).1) := by
  have hp : t.play.project = p := ht.project
  have ha := (t.advance_advanced choice).progress hclean hplain hp (ht.placed t rfl) ht.names
  constructor
  · intro id hb
    rw [hb] at ha
    rcases ha with ⟨_, hr⟩ | hr
    · cases hr
    · cases hr
  · intro hc
    rcases ha with ⟨hnone, _⟩ | hr
    · simp [hnone] at hc
    · exact hr

/-- The weights of the cellar are numbers, and the gold that is set here is none. -/
theorem cellar_never_breaks :
    (Playthrough.new inn (.cycle #[0])).lint.isClean ∧ inn.PlainWeights ∧
    ∃ t, ((Session.closed (.new inn (.cycle #[0]))).run
        [.openExperience "Cellar", .start "Stairs", .set "gold" "none"]).2 = .opened t ∧
      Reachable inn (.opened t) ∧ t.current.isSome ∧
      (∀ id, (t.advance none).1 ≠ .error (.brokenChain id)) ∧
      Traversal.Progressed inn.stepLimit none (t.advance none).1 := by
  have hclean : (Playthrough.new inn (.cycle #[0])).lint.isClean := by decide +kernel
  have habsent : ∀ w ∈ ["0", "2"], Variables.Absent ["gold"] w := by
    unfold Variables.Absent
    decide
  have hplain : inn.PlainWeights := by
    intro e he node hnode routes hb r hr
    have hroutes : ∀ e ∈ [cellar, hall], ∀ node ∈ e.nodes, ∀ routes,
        node.body = .transit (.probability routes) → routes = [⟨"0", 5⟩, ⟨"2", 4⟩] := by
      simp [cellar, hall, eq_comm]
    rw [hroutes e he node hnode routes hb] at hr
    exact habsent _ (List.mem_map_of_mem (f := (·.weight)) hr)
  have hl : inn.stepLimit.toNat < 2 ^ 64 - 1 := by decide
  have hr := Reachable.run (fun h => h.returns hl) (.fresh (.cycle #[0]))
    [.openExperience "Cellar", .start "Stairs", .set "gold" "none"]
  have h := clean_never_breaks inn _ hclean hplain _ hr none
  exact ⟨hclean, hplain, _, rfl, hr, rfl, h.1, h.2 rfl⟩

end Storyline

import Storyline.Proofs.Cursor
import Storyline.Proofs.Edges
import Storyline.Proofs.Works

/-! # Only links are followed

The links that a node lists and the node that comes next are told apart from each other, one from
the document alone and the other from the live state. They agree: whatever the variables, the choice
and the random source are, the next id is one of the links and is looked up in the same experience.
A teleport lists no link, and leads to a start node of its destination.
-/
namespace Storyline

/-- What comes next after a node of the experience `here`: an id, if there is one, and the
experience `there` in which it is looked up. -/
structure Node.GoesOn (p : Project) (node : Node) (here there : Experience)
    (next : Option NodeId) : Prop where
  link : (∀ name start, node.body ≠ .transit (.teleport name start)) →
    there = here ∧ ∀ id, next = some id → id ∈ node.links
  teleport : ∀ name start, node.body = .transit (.teleport name start) →
    ∀ first, next.bind there.node? = some first →
      there ∈ p.experiences ∧ there.name = name ∧
        first ∈ there.nodes ∧ first.startName? = some start

/-- Links lead from one node to another, and every node between the two is a transit node. -/
inductive Experience.Reaches (e : Experience) (a : NodeId) : NodeId → Prop where
  | link {node id} : e.node? a = some node → id ∈ node.links → Reaches e a id
  | pass {node id} : Reaches e a node.id → e.node? node.id = some node → ¬ node.isDisplayable →
      id ∈ node.links → Reaches e a id

theorem Scene.Leads.mem_links {choice : Option UInt64} {s : Scene} {next : Option NodeId}
    (h : s.Leads choice next) {id : NodeId} (hid : next = some id) : id ∈ s.links := by
  cases h with
  | start | dialog | function => simp [Scene.links, hid]
  | choice _ ho => exact List.mem_filterMap.mpr ⟨_, List.mem_of_getElem? ho, hid⟩

theorem Effect.goesOn {p : Project} {a b : Place} {work : Transit} (h : Effect p a work b)
    {node : Node} (hb : node.body = .transit work) :
    node.GoesOn p a.experience b.experience b.next := by
  have hlinks : node.links = work.links := by simp [Node.links, hb]
  constructor
  · intro hother
    rw [hlinks]
    rcases h.edge with hlink | ⟨name, start, _, rfl, _⟩
    · exact hlink
    · exact absurd hb (hother name start)
  · intro name start hteleport first hfirst
    cases hb.symm.trans hteleport
    cases h with
    | stranded => cases hfirst
    | @teleport _ _ e he =>
      obtain ⟨id, hid, hf⟩ := Option.bind_eq_some_iff.mp hfirst
      obtain ⟨begins, hs, rfl⟩ := Option.map_eq_some_iff.mp hid
      obtain ⟨hmem, hname⟩ := Project.experience_iff.mp he
      cases (Project.start_resolves hmem hs).symm.trans hf
      obtain ⟨hnode, hstart⟩ := Experience.start_mem hs
      exact ⟨hmem, hname, hnode, hstart⟩

theorem Chain.reaches {p : Project} {k : Nat} {a c : Place} (h : Chain p k a c)
    (hstay : ∀ l < k, ∀ d, Chain p l a d → ∀ name start, ¬ d.Meets (.teleport name start))
    {origin : NodeId} (ha : ∀ id, a.next = some id → a.experience.Reaches origin id) :
    c.experience = a.experience ∧ ∀ id, c.next = some id → a.experience.Reaches origin id := by
  -- Without a teleport on the chain all its ids are those of one experience.
  induction h with
  | nil => exact ⟨rfl, ha⟩
  | @cons k a b c hs _ ih =>
    obtain ⟨work, hm, he⟩ := hs
    obtain ⟨node, hn, hb⟩ := hm
    obtain ⟨id, hid, hf⟩ := Option.bind_eq_some_iff.mp hn
    have hnot : ∀ name start, node.body ≠ .transit (.teleport name start) := fun name start hbody =>
      hstay 0 (Nat.zero_lt_succ k) a (.nil a) name start ⟨node, hn, hbody⟩
    obtain ⟨hx, hlink⟩ := (he.goesOn hb).link hnot
    obtain rfl := (Experience.node_mem hf).2
    have hnext : ∀ i, b.next = some i → b.experience.Reaches origin i := by
      intro i hi
      rw [hx]
      exact .pass (ha node.id hid) hf (Node.not_displayable hb) (hlink i hi)
    have hlater : ∀ l < k, ∀ d, Chain p l b d →
        ∀ name start, ¬ d.Meets (.teleport name start) := fun l hl d hd =>
      hstay (l + 1) (Nat.succ_lt_succ hl) d (.cons ⟨work, ⟨node, hn, hb⟩, he⟩ hd)
    have hrest := ih hlater hnext
    rwa [hx] at hrest

namespace Traversal

variable {t : Traversal} {choice : Option UInt64} {origin : NodeId} {next : Option NodeId}

theorem Leaves.goesOn (h : t.Leaves choice origin next) :
    ∃ node, t.experience.node? origin = some node ∧
      node.GoesOn t.play.project t.experience t.experience next := by
  obtain ⟨_, node, s, hn, hb, hl⟩ := h
  have hlinks : node.links = s.links := by simp [Node.links, hb]
  refine ⟨node, hn, fun _ => ⟨rfl, fun id hid => hlinks ▸ hl.mem_links hid⟩, ?_⟩
  intro name start hteleport
  cases hb.symm.trans hteleport

theorem Passes.goesOn {c : Place} {work : Transit} (h : t.Passes choice c work) {node : Node}
    (hn : c.node? = some node) :
    node.GoesOn t.play.project c.experience ((t.arrive c t.current).pass work).2.experience
      ((t.arrive c t.current).pass work).1 := by
  obtain ⟨_, _, _, _, _, _, other, ho, hb⟩ := h
  cases hn.symm.trans ho
  obtain ⟨d, he, hp⟩ := pass_effect (t.arrive c t.current) c.next work
  rw [hp]
  exact he.goesOn hb

theorem Leaves.reaches (h : t.Leaves choice origin next)
    (hstay : ∀ c name start, ¬ t.Passes choice c (.teleport name start)) {k : Nat} {c : Place}
    (hc : Chain t.play.project k (t.place next) c) (hk : k ≤ t.play.project.stepLimit.toNat) :
    c.experience = t.experience ∧ ∀ id, c.next = some id → t.experience.Reaches origin id := by
  obtain ⟨node, hn, hgoes⟩ := h.goesOn
  have hscene : ∀ name start, node.body ≠ .transit (.teleport name start) := by
    obtain ⟨_, other, s, ho, hb, _⟩ := h
    cases hn.symm.trans ho
    intro name start hteleport
    cases hb.symm.trans hteleport
  have hfirst : ∀ id, (t.place next).next = some id → t.experience.Reaches origin id := by
    intro id hid
    exact .link hn ((hgoes.link hscene).2 id hid)
  refine hc.reaches (fun l hl d hd name start hm => ?_) hfirst
  exact hstay d name start ⟨origin, next, h, l, by omega, hd, hm⟩

theorem Advanced.stays {u : Traversal} {r : Except Fault Node} (h : Advanced t choice r u)
    (hstay : ∀ c name start, ¬ t.Passes choice c (.teleport name start)) :
    u.experience = t.experience := by
  cases h with
  | unset | lost | stuck | refused | ended => rfl
  | landed hl he | broke hl he | exceeded hl he | overflowed hl he =>
    obtain ⟨k, hk, hc⟩ := he.chain
    exact (hl.reaches hstay hc hk).1

theorem Advanced.lands {u : Traversal} {r : Except Fault Node} (h : Advanced t choice r u)
    (hstay : ∀ c name start, ¬ t.Passes choice c (.teleport name start)) {n : Node}
    (hr : r = .ok n) :
    u.current = some n.id ∧
      ∃ origin, t.current = some origin ∧ t.experience.Reaches origin n.id := by
  cases h with
  | @landed origin next node c hl he =>
    cases hr
    obtain ⟨k, hk, hc, hn, _⟩ := ends_scene_iff.mp he
    obtain ⟨id, hid, hf⟩ := Option.bind_eq_some_iff.mp hn
    obtain rfl := (Experience.node_mem hf).2
    exact ⟨rfl, origin, hl.1, (hl.reaches hstay hc hk).2 node.id hid⟩
  | _ => cases hr

end Traversal

/-- An advance follows links only. The node under the cursor and every node that is passed lead to
one of their links in the same experience, or for a teleport to a start node of its destination, if
they lead to anything. So an advance that passes no teleport stays in the experience, and links lead
over transit nodes alone from the cursor to the scene that it answers. -/
theorem advance_follows_links (t : Traversal) (choice : Option UInt64) :
    (∀ origin next, t.Leaves choice origin next →
      t.advance choice = Traversal.settle origin
        (Traversal.walk t.play.project.stepLimit.toNat next t) ∧
      ∃ node, t.experience.node? origin = some node ∧
        node.GoesOn t.play.project t.experience t.experience next) ∧
    (∀ c work node, t.Passes choice c work → c.node? = some node →
      let after := (t.arrive c t.current).pass work
      (∃ origin rest, t.advance choice =
        Traversal.settle origin (Traversal.walk rest after.1 after.2)) ∧
      node.GoesOn t.play.project c.experience after.2.experience after.1) ∧
    ((∀ c name start, ¬ t.Passes choice c (.teleport name start)) →
      (t.advance choice).2.experience = t.experience ∧
      ∀ n, (t.advance choice).1 = .ok n → (t.advance choice).2.current = some n.id ∧
        ∃ origin, t.current = some origin ∧ t.experience.Reaches origin n.id) := by
  refine ⟨fun origin next h => ⟨Traversal.advance_leaves h, h.goesOn⟩,
    fun c work node h hn => ⟨h.advance, h.goesOn hn⟩, fun hstay => ?_⟩
  have hadvanced := t.advance_advanced choice
  exact ⟨hadvanced.stays hstay, fun n hn => hadvanced.lands hstay hn⟩

def emptyHanded : Traversal :=
  { onStairs with play := { onStairs.play with store := inn.store.update fun _ => "0" } }

theorem emptyHanded_follows_links :
    emptyHanded.Leaves none 0 (some 1) ∧
    (∀ c name start, ¬ emptyHanded.Passes none c (.teleport name start)) ∧
    (∃ c work node, emptyHanded.Passes none c work ∧ c.node? = some node ∧
      node.GoesOn inn cellar cellar (some 2)) ∧
    (emptyHanded.advance none).2.experience = cellar ∧ cellar.Reaches 0 5 := by
  have hleaves : emptyHanded.Leaves none 0 (some 1) :=
    ⟨rfl, _, _, rfl, rfl, .start "Stairs" (some 1)⟩
  have hworks : emptyHanded.works none = [.update [⟨"gold", "+", "5"⟩] (some 2),
      .conditional [⟨[⟨"gold", "≥", "10"⟩], .all, 3⟩] (some 5)] := by decide +kernel
  have hstay : ∀ c name start, ¬ emptyHanded.Passes none c (.teleport name start) := by
    intro c name start h
    have hmem := h.mem_works
    simp [hworks] at hmem
  have hpasses : emptyHanded.Passes none (emptyHanded.place (some 1))
      (.update [⟨"gold", "+", "5"⟩] (some 2)) :=
    ⟨0, some 1, hleaves, 0, by decide, .nil _, _, rfl, rfl⟩
  have hlands : (emptyHanded.advance none).1 = .ok ⟨5, [], .scene .ending⟩ := by decide +kernel
  obtain ⟨_, hgoes, hkeeps⟩ := advance_follows_links emptyHanded none
  obtain ⟨hexperience, hreaches⟩ := hkeeps hstay
  obtain ⟨_, origin, horigin, hpath⟩ := hreaches _ hlands
  cases horigin
  exact ⟨hleaves, hstay, ⟨_, _, _, hpasses, rfl, (hgoes _ _ _ hpasses rfl).2⟩, hexperience, hpath⟩

end Storyline

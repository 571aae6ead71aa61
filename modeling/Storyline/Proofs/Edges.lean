import Storyline.Proofs.Chain
import Storyline.Proofs.Lookup
import Storyline.Proofs.RouteChoice

/-! # The edges of a walk

Whatever its data, a transit node goes on along one of its links in the same experience. Only a
teleport leads elsewhere, and then to a scene, so no chain goes on behind it.
-/
namespace Storyline

/-- The destination of a teleport that finds its experience. -/
def Place.Teleported (p : Project) (work : Transit) (b : Place) : Prop :=
  ∃ name start e, work = .teleport name start ∧ p.experience name = .ok e ∧ b.experience = e ∧
    b.next = (e.start? start).map (·.id)

theorem Effect.edge {p : Project} {a b : Place} {work : Transit} (h : Effect p a work b) :
    (b.experience = a.experience ∧ ∀ id, b.next = some id → id ∈ work.links) ∨
      b.Teleported p work := by
  cases h with
  | update => exact Or.inl ⟨rfl, fun id h => by simpa [Transit.links] using h⟩
  | conditional => exact Or.inl ⟨rfl, fun id h => Variables.route_mem h⟩
  | drawn hd =>
    refine Or.inl ⟨rfl, ?_⟩
    rintro id ⟨⟩
    exact drawRoute_mem hd
  | undrawn => exact Or.inl ⟨rfl, by simp⟩
  | teleport he => exact Or.inr ⟨_, _, _, rfl, he, rfl, rfl⟩
  | stranded => exact Or.inl ⟨rfl, by simp⟩

theorem Place.Teleported.stops {p : Project} {b : Place} {work : Transit}
    (h : b.Teleported p work) (other : Transit) : ¬ b.Meets other := by
  obtain ⟨name, start, e, _, he, rfl, hn⟩ := h
  rintro ⟨node, hb, hw⟩
  unfold Place.node? at hb
  rw [hn] at hb
  cases hs : b.experience.start? start with
  | none => simp [hs] at hb
  | some first =>
    rw [hs] at hb
    obtain ⟨n, hn, hd⟩ := Project.start_rests (Project.experience_mem he) hs
    cases hn.symm.trans hb
    exact Node.not_displayable hw hd

def Experience.Passes (e : Experience) (a b : NodeId) : Prop :=
  ∃ m ∈ e.nodes, ∃ n ∈ e.nodes, m.id = a ∧ n.id = b ∧ ¬ m.isDisplayable ∧ ¬ n.isDisplayable ∧
    b ∈ m.links

theorem Place.Meets.next {c : Place} {work : Transit} (h : c.Meets work) :
    ∃ node ∈ c.experience.nodes, c.next = some node.id ∧ ¬ node.isDisplayable ∧
      node.links = work.links := by
  obtain ⟨node, hn, hb⟩ := h
  obtain ⟨id, hid, hf⟩ := Option.bind_eq_some_iff.mp hn
  obtain ⟨hm, rfl⟩ := Experience.node_mem hf
  exact ⟨node, hm, hid, Node.not_displayable hb, by simp [Node.links, hb]⟩

theorem Step.passes {p : Project} {a b : Place} (hs : Step p a b) {other : Transit}
    (hb : b.Meets other) : b.experience = a.experience ∧
      ∃ i j, a.next = some i ∧ b.next = some j ∧ a.experience.Passes i j := by
  obtain ⟨work, ha, he⟩ := hs
  obtain ⟨n, hn, hj, hnt, _⟩ := hb.next
  obtain ⟨m, hm, hi, hmt, hl⟩ := ha.next
  rcases he.edge with ⟨hx, hlink⟩ | ht
  · refine ⟨hx, m.id, n.id, hi, hj, m, hm, n, hx ▸ hn, rfl, rfl, hmt, hnt, ?_⟩
    rw [hl]
    exact hlink n.id hj
  · exact absurd hb (ht.stops other)

end Storyline

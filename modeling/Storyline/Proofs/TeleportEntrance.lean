import Storyline.Proofs.Cursor
import Storyline.Proofs.Edges
import Storyline.Proofs.Passing

/-! # Teleporting is entering

A teleport switches the experience in the middle of a walk and puts an id in front of it, which the
walk then looks up; to enter an experience is to switch it and to put the cursor there. The two come
to the same, since a start node is a scene and its id leads back to it.
-/
namespace Storyline

theorem Effect.teleport_stops {p : Project} {a b : Place} {name start : String}
    (h : Effect p a (.teleport name start) b) (other : Transit) : ¬ b.Meets other := by
  cases h with
  | teleport he => exact Place.Teleported.stops ⟨_, _, _, rfl, he, rfl, rfl⟩ other
  | stranded =>
    rintro ⟨node, hn, _⟩
    cases hn

theorem Chain.teleport_last {p : Project} {k l : Nat} {a c d : Place} {name start : String}
    {work : Transit} (hc : Chain p k a c) (hm : c.Meets (.teleport name start))
    (hd : Chain p l a d) (hw : d.Meets work) : l ≤ k := by
  by_contra hlt
  obtain ⟨m, rfl⟩ := Nat.exists_eq_add_of_lt (Nat.not_le.mp hlt)
  rw [Nat.add_assoc] at hd
  cases hc.split hd with
  | cons hs hrest =>
    obtain ⟨other, hm', he⟩ := hs
    cases hm.unique hm'
    obtain ⟨_, rfl⟩ := (Chain.nil _).stop hrest (Nat.zero_le m) he.teleport_stops
    exact he.teleport_stops work hw

theorem Chain.unique {p : Project} {k : Nat} {a b c : Place} (hb : Chain p k a b)
    (hc : Chain p k a c) : b = c := by
  cases hb.split (l := 0) hc
  rfl

namespace Traversal

variable {t : Traversal}

theorem advance_teleport {choice : Option UInt64} {origin : NodeId} {next : Option NodeId}
    {k : Nat} {c : Place} (hl : t.Leaves choice origin next)
    (hc : Chain t.play.project k (t.place next) c) (hk : k < t.play.project.stepLimit.toNat)
    {name start : String} (hm : c.Meets (.teleport name start)) {e : Experience}
    (he : t.play.project.experience name = .ok e) {first : Node}
    (hs : e.start? start = some first) :
    t.advance choice =
      (.ok (first.fill c.store), t.arrive { c with experience := e } (some first.id)) := by
  have heffect : Effect t.play.project c (.teleport name start)
      { c with experience := e, next := (e.start? start).map (·.id) } := .teleport he
  rw [hs] at heffect
  have hlook : ((t.arrive { c with experience := e } t.current).place (some first.id)).node? =
      some first := Project.start_resolves (Project.experience_mem he) hs
  have hd : first.isDisplayable := by
    obtain ⟨link, hb⟩ := Node.start_displayable (Experience.start_mem hs).2
    exact Node.displayable_iff.mpr ⟨_, hb⟩
  rw [advance_effect hl hc hk hm heffect]
  exact congrArg (settle origin) (walk_scene _ hlook hd)

/-- When an advance comes to a teleport within the limit, and the destination is there, the teleport
is the last transit node of its chain and the only teleport. The advance answers and leaves what
entering the destination in the state before the teleport would: the cursor is on the first start
node of that name. -/
theorem teleport_agrees_with_enter (choice : Option UInt64) (origin : NodeId)
    (next : Option NodeId) (hl : t.Leaves choice origin next) (k : Nat) (c : Place)
    (hc : Chain t.play.project k (t.place next) c) (hk : k < t.play.project.stepLimit.toNat)
    (name start : String) (hm : c.Meets (.teleport name start)) (e : Experience)
    (he : t.play.project.experience name = .ok e) (hs : start ∈ e.starts) :
    (∀ l d work, Chain t.play.project l (t.place next) d → d.Meets work →
      l ≤ k ∧ ∀ other first, work = .teleport other first → l = k ∧ d = c) ∧
    t.advance choice = (t.arrive c t.current).enter name start ∧
    ∃ before first after, e.nodes = before ++ first :: after ∧
      first.startName? = some start ∧ (∀ node ∈ before, node.startName? ≠ some start) ∧
      t.advance choice =
        (.ok (first.fill c.store), t.arrive { c with experience := e } (some first.id)) := by
  obtain ⟨first, hfirst⟩ := Option.isSome_iff_exists.mp (Experience.start_found_iff.mpr hs)
  have hadvance := advance_teleport hl hc hk hm he hfirst
  refine ⟨?_, ?_, ?_⟩
  · intro l d work hd hw
    have hle := hc.teleport_last hm hd hw
    refine ⟨hle, ?_⟩
    rintro other start' rfl
    obtain rfl := Nat.le_antisymm hle (hd.teleport_last hw hc hm)
    exact ⟨rfl, hd.unique hc⟩
  · have henter := enter_found (t := t.arrive c t.current) he hfirst
    exact hadvance.trans henter.symm
  · obtain ⟨hname, before, after, hnodes, hbefore⟩ := List.find?_eq_some_iff_append.mp hfirst
    refine ⟨before, first, after, hnodes, by simpa using hname, ?_, hadvance⟩
    intro node hnode
    simpa using hbefore node hnode

end Traversal

def pier : Experience :=
  ⟨"Pier", [⟨0, [], .scene (.start "Dock" (some 1))⟩,
    ⟨1, [], .transit (.update [⟨"gold", "-", "2"⟩] (some 2))⟩,
    ⟨2, [], .transit (.teleport "Island" "Beach")⟩]⟩

/-- Its ids are those of the pier, and the beach is there twice. -/
def island : Experience :=
  ⟨"Island", [⟨2, [], .scene (.start "Beach" (some 0))⟩, ⟨0, [], .scene (.start "Beach" none)⟩]⟩

def ferry : Project where
  document := ⟨[pier, island], [⟨"gold", "7"⟩], []⟩
  experiences_distinct := by decide
  nodes_distinct := by decide
  variables_distinct := by decide
  stepLimit := 2

def onDock : Traversal := ⟨.new ferry (.cycle #[0]), pier, some 0⟩

/-- The fare is paid before the teleport, which is the last node that the limit admits. -/
theorem dock_agrees_with_enter :
    onDock.Leaves none 0 (some 1) ∧ 1 < ferry.stepLimit.toNat ∧ "Beach" ∈ island.starts ∧
    ∃ c, Chain ferry 1 (onDock.place (some 1)) c ∧ c.Meets (.teleport "Island" "Beach") ∧
      c.store.values = ["5"] ∧
      onDock.advance none = (onDock.arrive c (some 0)).enter "Island" "Beach" ∧
      (onDock.advance none).1 = .ok ⟨2, [], .scene (.start "Beach" (some 0))⟩ := by
  have hl : onDock.Leaves none 0 (some 1) := ⟨rfl, _, _, rfl, rfl, .start "Dock" (some 1)⟩
  have hk : 1 < ferry.stepLimit.toNat := by decide
  have hs : "Beach" ∈ island.starts := by decide
  have hfare : (onDock.place (some 1)).Meets (.update [⟨"gold", "-", "2"⟩] (some 2)) :=
    ⟨_, rfl, rfl⟩
  have hc : Chain ferry 1 (onDock.place (some 1)) _ :=
    .cons ⟨_, hfare, .update (writes_attempt _ _)⟩ (.nil _)
  have h := Traversal.teleport_agrees_with_enter none 0 (some 1) hl 1 _ hc hk "Island" "Beach"
    ⟨_, rfl, rfl⟩ island rfl hs
  refine ⟨hl, hk, hs, _, hc, ⟨_, rfl, rfl⟩, by decide +kernel, h.2.1, by decide +kernel⟩

end Storyline

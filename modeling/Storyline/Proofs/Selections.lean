import Mathlib.Data.Nat.Count
import Storyline.Proofs.Advance
import Storyline.Proofs.LintStatic

/-! # The draws of a session

Which draws a session asks for: the host asks for its own, and an advance for one at each
probability node that it passes. A draw succeeds if one of its routes can be drawn.
-/
namespace Storyline

/-- A draw as it is asked for, by a probability node or by the host: the routes, and the variables
that their weights are read with. -/
structure Selection where
  store : Variables
  routes : List ChanceRoute

def Selection.Succeeds (x : Selection) : Prop := ∃ r ∈ x.routes, x.store.Usable r

instance (x : Selection) : Decidable x.Succeeds :=
  inferInstanceAs (Decidable (∃ r ∈ x.routes, x.store.Usable r))

theorem Selection.succeeds_iff {x : Selection} :
    x.Succeeds ↔ x.store.weighted x.routes ≠ [] := by
  simp [Succeeds, Variables.weighted_eq_nil_iff]

def Selection.successes (asked : List Selection) : Nat := asked.countP (·.Succeeds)

@[simp] theorem Selection.successes_nil : successes [] = 0 := rfl

@[simp] theorem Selection.successes_append (asked more : List Selection) :
    successes (asked ++ more) = successes asked + successes more :=
  List.countP_append

namespace Traversal

def selection (t : Traversal) : Transit → List Selection
  | .probability routes => [⟨t.play.store, routes⟩]
  | _ => []

def walkSelections : Nat → Option NodeId → Traversal → List Selection
  | 0, _, _ => []
  | budget + 1, next, t =>
    match (next.bind t.experience.node?).map Node.body with
    | some (.transit work) =>
      t.selection work ++ walkSelections budget (t.pass work).1 (t.pass work).2
    | _ => []

/-- The draws of an advance: those of its walk, if it leaves its scene at all. -/
def selections (t : Traversal) (choice : Option UInt64) : List Selection :=
  match t.current.bind t.experience.node? with
  | none => []
  | some node =>
    match node.body with
    | .transit _ => []
    | .scene s =>
      match s.leave choice with
      | .error _ => []
      | .ok next => walkSelections t.play.project.stepLimit.toNat next t

end Traversal

def Place.Draws (c : Place) : Prop :=
  ∃ routes, c.Meets (.probability routes) ∧ Selection.Succeeds ⟨c.store, routes⟩

namespace Session

def selections (s : Session) : Command → List Selection
  | .advance choice =>
    match s with
    | .closed _ => []
    | .opened t => t.selections choice
  | .draw routes => [⟨s.play.store, routes⟩]
  | _ => []

def runSelections (s : Session) : List Command → List Selection
  | [] => []
  | c :: rest => s.selections c ++ (s.perform c).2.runSelections rest

end Session

namespace Traversal

section Walk

variable {t : Traversal} {next : Option NodeId}

theorem walkSelections_stop (budget : Nat) (h : ∀ work, ¬ (t.place next).Meets work) :
    walkSelections budget next t = [] := by
  cases budget with
  | zero => rfl
  | succ budget =>
    unfold walkSelections
    split
    · next work hw =>
      obtain ⟨node, hn, hb⟩ := Option.map_eq_some_iff.mp hw
      exact absurd ⟨node, hn, hb⟩ (h work)
    · rfl

theorem walkSelections_pass {work : Transit} (budget : Nat) (h : (t.place next).Meets work) :
    walkSelections (budget + 1) next t =
      t.selection work ++ walkSelections budget (t.pass work).1 (t.pass work).2 := by
  obtain ⟨node, hn, hb⟩ := h
  change next.bind t.experience.node? = some node at hn
  simp only [walkSelections, hn, Option.map_some, hb]

theorem selections_leaves {choice : Option UInt64} {origin : NodeId}
    (h : t.Leaves choice origin next) :
    t.selections choice = walkSelections t.play.project.stepLimit.toNat next t := by
  obtain ⟨hc, node, s, hn, hb, hl⟩ := h
  simp only [selections, hc, Option.bind_some, hn, hb, Scene.leave_ok_iff.mpr hl]

open Classical in
theorem successes_selection {work : Transit} (hm : (t.place next).Meets work) :
    Selection.successes (t.selection work) = if (t.place next).Draws then 1 else 0 := by
  cases work with
  | probability routes =>
    have hdraws : (t.place next).Draws ↔ Selection.Succeeds ⟨t.play.store, routes⟩ := by
      constructor
      · rintro ⟨other, hm', hs⟩
        cases hm.unique hm'
        exact hs
      · exact fun hs => ⟨routes, hm, hs⟩
    simp [selection, Selection.successes, List.countP_singleton, hdraws]
  | update | conditional | teleport =>
    have hnone : ¬ (t.place next).Draws := by
      rintro ⟨routes, hm', _⟩
      cases hm.unique hm'
    rw [if_neg hnone]
    rfl

end Walk

open Classical in
/-- What is counted are the places of the chain, within the budget, at which a route is drawn. -/
theorem successes_walkSelections (budget : Nat) (next : Option NodeId) (t : Traversal) :
    Selection.successes (walkSelections budget next t) =
      Nat.count (fun k => ∃ c, Chain t.play.project k (t.place next) c ∧ c.Draws) budget := by
  induction budget generalizing next t with
  | zero => rfl
  | succ budget ih =>
    by_cases hm : ∃ work, (t.place next).Meets work
    · obtain ⟨work, hm⟩ := hm
      obtain ⟨b, he, hp⟩ := pass_effect t next work
      have hs : Step t.play.project (t.place next) b := ⟨work, hm, he⟩
      rw [walkSelections_pass _ hm, Selection.successes_append, hp, ih, successes_selection hm,
        Nat.count_succ', Nat.add_comm]
      simp only [chain_zero_iff, hs.chain_iff, exists_eq_left]
      rfl
    · have hstop : ∀ work, ¬ (t.place next).Meets work := fun work h => hm ⟨work, h⟩
      rw [walkSelections_stop _ hstop, Selection.successes_nil, eq_comm, Nat.count_iff_forall_not]
      rintro k _ ⟨c, hc, routes, hd, _⟩
      obtain ⟨_, rfl⟩ := (Chain.nil _).stop hc (Nat.zero_le k) hstop
      exact hstop _ hd

end Traversal
end Storyline

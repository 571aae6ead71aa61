import Storyline.Proofs.Failures
import Storyline.Proofs.Passing

/-! # The works of an advance

The transit nodes that an advance passes, as a list that can be computed: they make up the passage
between the two places where its walk begins and ends.
-/
namespace Storyline
namespace Traversal

def walkWorks : Nat → Option NodeId → Traversal → List Transit
  | 0, _, _ => []
  | budget + 1, next, t =>
    match (next.bind t.experience.node?).map Node.body with
    | some (.transit work) => work :: walkWorks budget (t.pass work).1 (t.pass work).2
    | _ => []

/-- The transit nodes of an advance: those of its walk, if it leaves its scene at all. -/
def works (t : Traversal) (choice : Option UInt64) : List Transit :=
  match t.current.bind t.experience.node? with
  | none => []
  | some node =>
    match node.body with
    | .transit _ => []
    | .scene s =>
      match s.leave choice with
      | .error _ => []
      | .ok next => walkWorks t.play.project.stepLimit.toNat next t

variable {t : Traversal} {next : Option NodeId}

theorem walkWorks_stop (budget : Nat) (h : ∀ work, ¬ (t.place next).Meets work) :
    walkWorks budget next t = [] := by
  cases budget with
  | zero => rfl
  | succ budget =>
    unfold walkWorks
    split
    · next work hw =>
      obtain ⟨node, hn, hb⟩ := Option.map_eq_some_iff.mp hw
      exact absurd ⟨node, hn, hb⟩ (h work)
    · rfl

theorem walkWorks_pass {work : Transit} (budget : Nat) (h : (t.place next).Meets work) :
    walkWorks (budget + 1) next t = work :: walkWorks budget (t.pass work).1 (t.pass work).2 := by
  obtain ⟨node, hn, hb⟩ := h
  change next.bind t.experience.node? = some node at hn
  simp only [walkWorks, hn, Option.map_some, hb]

theorem walk_passage (budget : Nat) (next : Option NodeId) (t : Traversal) :
    ∃ c, Passage t.play.project (walkWorks budget next t) (t.place next) c ∧
      (walk budget next t).2 = t.arrive c t.current := by
  induction budget generalizing next t with
  | zero =>
    refine ⟨t.place next, .nil _, ?_⟩
    rcases (t.place next).node_cases with hn | ⟨node, hn, hd⟩ | ⟨work, hm⟩
    · rw [walk_nowhere 0 hn]
      rfl
    · rw [walk_scene 0 hn hd]
      rfl
    · rw [walk_exhausted hm]
      rfl
  | succ budget ih =>
    rcases (t.place next).node_cases with hn | ⟨node, hn, hd⟩ | ⟨work, hm⟩
    · rw [walkWorks_stop _ (nowhere_stops hn), walk_nowhere _ hn]
      exact ⟨t.place next, .nil _, rfl⟩
    · rw [walkWorks_stop _ (scene_stops hn hd), walk_scene _ hn hd]
      exact ⟨t.place next, .nil _, rfl⟩
    · obtain ⟨b, he, hp⟩ := pass_effect t next work
      obtain ⟨c, hw, hu⟩ := ih b.next (t.arrive b t.current)
      rw [walkWorks_pass _ hm, walk_pass _ hm, hp]
      exact ⟨c, .cons hm he hw, hu⟩

theorem settle_store (origin : NodeId) (r : Arrival × Traversal) :
    (settle origin r).2.play.store = r.2.play.store := by
  obtain ⟨arrival, u⟩ := r
  cases arrival with
  | scene node => rfl
  | nowhere => rfl
  | exhausted =>
    unfold settle
    dsimp only
    split <;> rfl

theorem advance_written (t : Traversal) (choice : Option UInt64) :
    (t.advance choice).2.play.store =
      ((t.works choice).flatMap Transit.assignments).foldl Variables.attempt t.play.store := by
  unfold advance works
  cases hc : t.current with
  | none => rfl
  | some origin =>
    simp only [Option.bind_some]
    cases hn : t.experience.node? origin with
    | none => rfl
    | some node =>
      dsimp only
      cases hb : node.body with
      | transit work => rfl
      | scene s =>
        dsimp only
        cases hs : s.leave choice with
        | error fault => rfl
        | ok next =>
          obtain ⟨c, hw, hu⟩ := walk_passage t.play.project.stepLimit.toNat next t
          dsimp only
          rw [settle_store, hu]
          exact hw.written

theorem walkWorks_chain {a c : Place} {k : Nat} (hc : Chain t.play.project k a c) {work : Transit}
    (hm : c.Meets work) (current : Option NodeId) {budget : Nat} (hk : k < budget) :
    work ∈ walkWorks budget a.next (t.arrive a current) := by
  induction hc generalizing budget with
  | nil c =>
    obtain ⟨rest, rfl⟩ := Nat.exists_eq_add_of_lt hk
    have hm' : ((t.arrive c current).place c.next).Meets work := hm
    rw [walkWorks_pass _ hm']
    exact List.mem_cons_self
  | @cons k a b c hs _ ih =>
    obtain ⟨first, hfirst, he⟩ := hs
    obtain ⟨rest, rfl⟩ := Nat.exists_eq_add_of_lt hk
    obtain ⟨d, hd, hp⟩ := pass_effect (t.arrive a current) a.next first
    cases he.unique hd
    have hfirst' : ((t.arrive a current).place a.next).Meets first := hfirst
    rw [walkWorks_pass _ hfirst', hp]
    exact List.mem_cons_of_mem first (ih hm (by omega))

theorem Passes.mem_works {choice : Option UInt64} {c : Place} {work : Transit}
    (h : t.Passes choice c work) : work ∈ t.works choice := by
  obtain ⟨origin, next, ⟨hcurrent, node, s, hn, hb, hl⟩, k, hk, hc, hm⟩ := h
  simp only [works, hcurrent, Option.bind_some, hn, hb, Scene.leave_ok_iff.mpr hl]
  exact walkWorks_chain hc hm t.current hk

end Traversal
end Storyline

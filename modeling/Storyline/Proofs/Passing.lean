import Storyline.Proofs.Advance

/-! # What an advance passes

An advance does the work of every transit node of its chain, one after the other, until the limit
is used up. From any place of the chain on it answers what a walk from there answers, with what is
left of the limit.
-/
namespace Storyline

/-- An advance with this choice does the work of a transit node at the place `c`. -/
def Traversal.Passes (t : Traversal) (choice : Option UInt64) (c : Place) (work : Transit) : Prop :=
  ∃ origin next, t.Leaves choice origin next ∧
    ∃ k < t.play.project.stepLimit.toNat, Chain t.play.project k (t.place next) c ∧ c.Meets work

namespace Traversal

variable {t : Traversal}

theorem walk_chain {a c : Place} {k : Nat} (hc : Chain t.play.project k a c) (budget : Nat)
    (current : Option NodeId) :
    walk (budget + k) a.next (t.arrive a current) = walk budget c.next (t.arrive c current) := by
  induction hc with
  | nil => rfl
  | @cons k a b c hs _ ih =>
    obtain ⟨work, hm, he⟩ := hs
    obtain ⟨d, hd, hp⟩ := pass_effect (t.arrive a current) a.next work
    cases he.unique hd
    have hm' : ((t.arrive a current).place a.next).Meets work := hm
    rw [← Nat.add_assoc, walk_pass _ hm', hp]
    exact ih

theorem advance_chain {choice : Option UInt64} {origin : NodeId} {next : Option NodeId}
    {k : Nat} {c : Place} (hl : t.Leaves choice origin next)
    (hc : Chain t.play.project k (t.place next) c) (hk : k ≤ t.play.project.stepLimit.toNat) :
    t.advance choice = settle origin
      (walk (t.play.project.stepLimit.toNat - k) c.next (t.arrive c t.current)) := by
  have hstart : t.arrive (t.place next) t.current = t := rfl
  have hwalk := walk_chain hc (t.play.project.stepLimit.toNat - k) t.current
  rw [Nat.sub_add_cancel hk, hstart] at hwalk
  rw [advance_leaves hl, ← hwalk]
  rfl

theorem advance_effect {choice : Option UInt64} {origin : NodeId} {next : Option NodeId} {k : Nat}
    {c d : Place} {work : Transit} (hl : t.Leaves choice origin next)
    (hc : Chain t.play.project k (t.place next) c) (hk : k < t.play.project.stepLimit.toNat)
    (hm : c.Meets work) (he : Effect t.play.project c work d) :
    t.advance choice = settle origin
      (walk (t.play.project.stepLimit.toNat - (k + 1)) d.next (t.arrive d t.current)) :=
  advance_chain hl (hc.snoc ⟨work, hm, he⟩) hk

theorem Passes.advance {choice : Option UInt64} {c : Place} {work : Transit}
    (h : t.Passes choice c work) : ∃ origin rest, t.advance choice =
      settle origin (walk rest ((t.arrive c t.current).pass work).1
        ((t.arrive c t.current).pass work).2) := by
  obtain ⟨origin, next, hl, k, hk, hc, hm⟩ := h
  obtain ⟨rest, hrest⟩ := Nat.exists_eq_add_of_lt hk
  have hm' : ((t.arrive c t.current).place c.next).Meets work := hm
  have hbudget : t.play.project.stepLimit.toNat - k = rest + 1 := by omega
  refine ⟨origin, rest, ?_⟩
  rw [advance_chain hl hc (Nat.le_of_lt hk), hbudget, ← walk_pass rest hm']

end Traversal
end Storyline

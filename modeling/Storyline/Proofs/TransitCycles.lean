import Mathlib.Data.List.Perm.Subperm
import Mathlib.Logic.Relation
import Storyline.Proofs.Cursor
import Storyline.Proofs.Edges

/-! # Transit cycles

An advance counts the transit nodes it passes but looks for no cycle. Without a cycle of transit
nodes a chain visits each of them once, so a limit of their number is never exceeded, whatever the
variables and the random source make of the routes.
-/
namespace Storyline

namespace Experience

def transits (e : Experience) : List Node := e.nodes.filter (!·.isDisplayable)

/-- No transit node leads back to itself over transit nodes alone. -/
def Acyclic (e : Experience) : Prop := ∀ id, ¬ Relation.TransGen e.Passes id id

/-- Ids that grow along all links between transit nodes exclude every cycle. -/
theorem acyclic_of_rank {e : Experience} (rank : NodeId → Int)
    (h : ∀ a b, e.Passes a b → rank a < rank b) : e.Acyclic := by
  have grows : ∀ {a b}, Relation.TransGen e.Passes a b → rank a < rank b := by
    intro a b hab
    induction hab with
    | single hp => exact h _ _ hp
    | tail _ hp ih => exact Int.lt_trans ih (h _ _ hp)
  intro id hc
  exact Int.lt_irrefl _ (grows hc)

structure Trail (e : Experience) (ids : List NodeId) : Prop where
  linked : ids.IsChain e.Passes
  transit : ∀ id ∈ ids, id ∈ e.transits.map (·.id)

theorem Trail.nodup {e : Experience} {ids : List NodeId} (h : e.Trail ids) (he : e.Acyclic) :
    ids.Nodup := by
  have hc : ids.IsChain (Relation.TransGen e.Passes) := h.linked.imp fun _ _ => .single
  refine hc.pairwise.imp ?_
  rintro a _ hab rfl
  exact he a hab

theorem Trail.length_le {e : Experience} {ids : List NodeId} (h : e.Trail ids) (he : e.Acyclic) :
    ids.length ≤ e.transits.length := by
  have hs := (List.subperm_of_subset (h.nodup he) h.transit).length_le
  simpa using hs

end Experience

theorem Place.Meets.transit {c : Place} {work : Transit} (h : c.Meets work) {id : NodeId}
    (hid : c.next = some id) : id ∈ c.experience.transits.map (·.id) := by
  obtain ⟨node, hn, hi, ht, _⟩ := h.next
  cases hid.symm.trans hi
  refine List.mem_map.mpr ⟨node, ?_, rfl⟩
  exact List.mem_filter.mpr ⟨hn, by simpa using ht⟩

theorem Chain.meets {p : Project} {k : Nat} {a c : Place} (h : Chain p k a c)
    {work : Transit} (hc : c.Meets work) : ∃ first, a.Meets first := by
  cases h with
  | nil => exact ⟨work, hc⟩
  | cons hs =>
    obtain ⟨first, hm, _⟩ := hs
    exact ⟨first, hm⟩

theorem Chain.trail {p : Project} {k : Nat} {a c : Place} (h : Chain p k a c) {work : Transit}
    (hc : c.Meets work) :
    ∃ i rest, a.next = some i ∧ rest.length = k ∧ a.experience.Trail (i :: rest) := by
  -- The chain stays in one experience: a teleport would have ended it before the transit node at
  -- its end.
  induction h with
  | nil c =>
    obtain ⟨node, _, hi, _⟩ := hc.next
    refine ⟨node.id, [], hi, rfl, List.IsChain.singleton _, ?_⟩
    intro id hid
    rw [List.mem_singleton.mp hid]
    exact hc.transit hi
  | @cons k a b c hs hb ih =>
    obtain ⟨j, rest, hj, hlen, htrail⟩ := ih hc
    obtain ⟨other, hm⟩ := hb.meets hc
    obtain ⟨hx, i, j', hi, hj', hpass⟩ := hs.passes hm
    cases hj.symm.trans hj'
    rw [hx] at htrail
    obtain ⟨first, hf, _⟩ := hs
    refine ⟨i, j :: rest, hi, by simp [hlen], htrail.linked.cons_cons hpass, ?_⟩
    intro id hid
    rcases List.mem_cons.mp hid with rfl | hid
    · exact hf.transit hi
    · exact htrail.transit id hid

namespace Traversal

theorem Advanced.within_limit {t u : Traversal} {choice : Option UInt64} {r : Except Fault Node}
    (h : Advanced t choice r u) (ha : t.experience.Acyclic)
    (hn : t.experience.transits.length ≤ t.play.project.stepLimit.toNat) :
    (∀ limit, r ≠ .error (.stepLimit limit)) ∧ r ≠ .error .stepOverflow := by
  have hnot : ∀ {next c}, ¬ Ends t.play.project t.play.project.stepLimit.toNat (t.place next)
      .exhausted c := by
    intro next c he
    obtain ⟨hc, work, hm⟩ := ends_exhausted_iff.mp he
    obtain ⟨i, rest, _, hlen, htrail⟩ := hc.trail hm
    have hle : (i :: rest).length ≤ t.experience.transits.length := htrail.length_le ha
    simp only [List.length_cons] at hle
    omega
  cases h with
  | exceeded _ he => exact absurd he hnot
  | overflowed _ he => exact absurd he hnot
  | _ => simp

end Traversal

theorem Reachable.returns_of_acyclic {p : Project} (ha : ∀ e ∈ p.experiences, e.Acyclic)
    (hn : ∀ e ∈ p.experiences, e.transits.length ≤ p.stepLimit.toNat) {s : Session}
    (h : Reachable p s) (c : Command) : s.Returns c := by
  rintro t choice rfl _
  have hp : t.play.project = p := h.project
  have ho : t.experience ∈ p.experiences := hp ▸ (h.placed t rfl).opened
  exact ((t.advance_advanced choice).within_limit (ha _ ho) (by rw [hp]; exact hn _ ho)).2

/-- Without cycles of transit nodes, and with a limit of at least their number in each experience,
no advance of a session is cut short, in whatever state the variables and the source are. -/
theorem acyclic_never_exceeds_limit (p : Project) (ha : ∀ e ∈ p.experiences, e.Acyclic)
    (hn : ∀ e ∈ p.experiences, e.transits.length ≤ p.stepLimit.toNat) (first : RandomSource)
    (commands : List Command) (t : Traversal)
    (ht : ((Session.closed (.new p first)).run commands).2 = .opened t) (store : Variables)
    (source : RandomSource) (choice : Option UInt64) :
    (∀ limit, (({ t with play := { t.play with store, source } } : Traversal).advance choice).1 ≠
      .error (.stepLimit limit)) ∧
    (({ t with play := { t.play with store, source } } : Traversal).advance choice).1 ≠
      .error .stepOverflow := by
  have hr : Reachable p (.opened t) :=
    ht ▸ Reachable.run (fun h => h.returns_of_acyclic ha hn) (.fresh first) commands
  have hp : t.play.project = p := hr.project
  have ho : t.experience ∈ p.experiences := hp ▸ (hr.placed t rfl).opened
  have hlim : t.experience.transits.length ≤ t.play.project.stepLimit.toNat := by
    rw [hp]
    exact hn _ ho
  exact (Traversal.advance_advanced _ choice).within_limit (ha _ ho) hlim

/-- The cellar has four transit nodes in a row, and the limit is four. -/
theorem cellar_never_exceeds_limit :
    (∀ e ∈ inn.experiences, e.Acyclic) ∧
    (∀ e ∈ inn.experiences, e.transits.length ≤ inn.stepLimit.toNat) ∧
    ∃ t, ((Session.closed (.new inn (.cycle #[0]))).run
        [.openExperience "Cellar", .start "Stairs"]).2 = .opened t ∧
      ∀ limit, (t.advance none).1 ≠ .error (.stepLimit limit) := by
  have hup : ∀ e ∈ inn.experiences, ∀ m ∈ e.nodes, ¬ m.isDisplayable →
      m.links.all fun b => m.id.toInt < b.toInt := by decide
  have ha : ∀ e ∈ inn.experiences, e.Acyclic := by
    intro e he
    refine Experience.acyclic_of_rank Int64.toInt ?_
    rintro a b ⟨m, hm, n, -, rfl, -, hmt, -, hb⟩
    exact of_decide_eq_true (List.all_eq_true.mp (hup e he m hm hmt) b hb)
  have hn : ∀ e ∈ inn.experiences, e.transits.length ≤ inn.stepLimit.toNat := by decide
  have h := acyclic_never_exceeds_limit inn ha hn (.cycle #[0])
    [.openExperience "Cellar", .start "Stairs"]
  exact ⟨ha, hn, _, rfl, (h _ rfl _ _ none).1⟩

end Storyline

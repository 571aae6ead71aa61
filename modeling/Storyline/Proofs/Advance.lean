import Mathlib.Algebra.Group.Nat.Defs
import Storyline.Proofs.Chain
import Storyline.Proofs.Lookup
import Storyline.Proofs.RouteChoice

/-! # What an advance does

An advance leaves its scene and follows the chain of transit nodes behind it, up to a scene, to
nowhere or to the limit. `Advanced` lists every way in which that can end, and is the only account
of an advance that later modules use.
-/
namespace Storyline

/-- The link that a scene goes on with, under a choice that is valid for it. -/
inductive Scene.Leads (choice : Option UInt64) : Scene → Option NodeId → Prop where
  | start (name link) : Leads choice (.start name link) link
  | dialog (speaker line link) : Leads choice (.dialog speaker line link) link
  | function (statement link) : Leads choice (.function statement link) link
  | choice {options i option} : choice = some i → options[i.toNat]? = some option →
      Leads choice (.choice options) option.link

theorem Scene.leave_ok_iff {choice : Option UInt64} {s : Scene} {next : Option NodeId} :
    s.leave choice = .ok next ↔ s.Leads choice next := by
  constructor
  · intro h
    cases s with
    | start name link => cases h; exact .start name next
    | dialog speaker line link => cases h; exact .dialog speaker line next
    | function statement link => cases h; exact .function statement next
    | ending => cases h
    | choice options =>
      simp only [Scene.leave] at h
      split at h
      · next option ho =>
        obtain ⟨i, hi, ho⟩ := Option.bind_eq_some_iff.mp ho
        cases h
        exact .choice hi ho
      · cases h
  · intro h
    cases h with
    | start | dialog | function => rfl
    | choice hi ho => simp [Scene.leave, hi, ho]

theorem Scene.leave_error {choice : Option UInt64} {s : Scene} {fault : Fault}
    (h : s.leave choice = .error fault) :
    (∃ options, s = .choice options ∧ (choice.bind fun i => options[i.toNat]?) = none ∧
      fault = .invalidChoice choice options.length) ∨
    (s = .ending ∧ fault = .cannotAdvance .ending) := by
  cases s with
  | start | dialog | function => cases h
  | ending => cases h; exact Or.inr ⟨rfl, rfl⟩
  | choice options =>
    simp only [Scene.leave] at h
    split at h
    · cases h
    · next hi => cases h; exact Or.inl ⟨options, rfl, hi, rfl⟩

namespace Traversal

def place (t : Traversal) (next : Option NodeId) : Place :=
  ⟨t.experience, t.play.store, t.play.source, next⟩

def arrive (t : Traversal) (c : Place) (current : Option NodeId) : Traversal :=
  ⟨⟨t.play.project, c.store, c.source⟩, c.experience, current⟩

/-- The cursor is on a scene that goes on with `next` under this choice. -/
def Leaves (t : Traversal) (choice : Option UInt64) (origin : NodeId) (next : Option NodeId) :
    Prop :=
  t.current = some origin ∧ ∃ node s, t.experience.node? origin = some node ∧
    node.body = .scene s ∧ s.Leads choice next

/-- How a walk ends that may pass `budget` transit nodes from a place on. -/
inductive Ends (p : Project) (budget : Nat) (a : Place) : Arrival → Place → Prop where
  | scene {k c node} : Chain p k a c → k ≤ budget → c.node? = some node → node.isDisplayable →
      Ends p budget a (.scene node) c
  | nowhere {k c} : Chain p k a c → k ≤ budget → c.node? = none → Ends p budget a .nowhere c
  | exhausted {c work} : Chain p budget a c → c.Meets work → Ends p budget a .exhausted c

theorem Ends.chain {p : Project} {budget : Nat} {a c : Place} {r : Arrival}
    (h : Ends p budget a r c) : ∃ k ≤ budget, Chain p k a c := by
  cases h with
  | scene hc hk => exact ⟨_, hk, hc⟩
  | nowhere hc hk => exact ⟨_, hk, hc⟩
  | exhausted hc => exact ⟨_, Nat.le_refl _, hc⟩

theorem ends_scene_iff {p : Project} {budget : Nat} {a c : Place} {node : Node} :
    Ends p budget a (.scene node) c ↔
      ∃ k ≤ budget, Chain p k a c ∧ c.node? = some node ∧ node.isDisplayable := by
  constructor
  · intro h
    cases h with
    | scene hc hk hn hd => exact ⟨_, hk, hc, hn, hd⟩
  · rintro ⟨k, hk, hc, hn, hd⟩
    exact .scene hc hk hn hd

theorem ends_nowhere_iff {p : Project} {budget : Nat} {a c : Place} :
    Ends p budget a .nowhere c ↔ ∃ k ≤ budget, Chain p k a c ∧ c.node? = none := by
  constructor
  · intro h
    cases h with
    | nowhere hc hk hn => exact ⟨_, hk, hc, hn⟩
  · rintro ⟨k, hk, hc, hn⟩
    exact .nowhere hc hk hn

theorem ends_exhausted_iff {p : Project} {budget : Nat} {a c : Place} :
    Ends p budget a .exhausted c ↔ Chain p budget a c ∧ ∃ work, c.Meets work := by
  constructor
  · intro h
    cases h with
    | exhausted hc hm => exact ⟨hc, _, hm⟩
  · rintro ⟨hc, work, hm⟩
    exact .exhausted hc hm

theorem Ends.cons {p : Project} {budget : Nat} {a b c : Place} {r : Arrival} (hs : Step p a b)
    (h : Ends p budget b r c) : Ends p (budget + 1) a r c := by
  cases h with
  | scene hc hk hn hd => exact .scene (.cons hs hc) (by omega) hn hd
  | nowhere hc hk hn => exact .nowhere (.cons hs hc) (by omega) hn
  | exhausted hc hm => exact .exhausted (.cons hs hc) hm

theorem scene_stops {c : Place} {node : Node} (hn : c.node? = some node)
    (hd : node.isDisplayable) : ∀ work, ¬ c.Meets work := by
  rintro work ⟨node', hn', hb⟩
  cases hn.symm.trans hn'
  exact Node.not_displayable hb hd

theorem nowhere_stops {c : Place} (hn : c.node? = none) : ∀ work, ¬ c.Meets work := by
  rintro work ⟨node, hn', _⟩
  simp [hn] at hn'

private theorem ends_stop {p : Project} {budget k : Nat} {a b c : Place} {r : Arrival}
    (hb : Chain p k a b) (hk : k ≤ budget) (hstop : ∀ work, ¬ b.Meets work)
    (h : Ends p budget a r c) : b = c := by
  cases h with
  | @scene l c node hc hl hn hd =>
    rcases Nat.le_total k l with hkl | hlk
    · exact (hb.stop hc hkl hstop).2
    · exact (hc.stop hb hlk (scene_stops hn hd)).2.symm
  | @nowhere l c hc hl hn =>
    rcases Nat.le_total k l with hkl | hlk
    · exact (hb.stop hc hkl hstop).2
    · exact (hc.stop hb hlk (nowhere_stops hn)).2.symm
  | exhausted hc hm => exact (hb.stop hc hk hstop).2

theorem Ends.unique {p : Project} {budget : Nat} {a c d : Place} {r q : Arrival}
    (h : Ends p budget a r c) (h' : Ends p budget a q d) : r = q ∧ c = d := by
  cases h with
  | scene hc hk hn hd =>
    cases ends_stop hc hk (scene_stops hn hd) h'
    cases h' with
    | scene _ _ hn' _ => cases hn.symm.trans hn'; exact ⟨rfl, rfl⟩
    | nowhere _ _ hn' => cases hn.symm.trans hn'
    | exhausted _ hm => exact absurd hm (scene_stops hn hd _)
  | nowhere hc hk hn =>
    cases ends_stop hc hk (nowhere_stops hn) h'
    cases h' with
    | scene _ _ hn' _ => cases hn.symm.trans hn'
    | nowhere => exact ⟨rfl, rfl⟩
    | exhausted _ hm => exact absurd hm (nowhere_stops hn _)
  | exhausted hc hm =>
    cases h' with
    | scene hc' hk hn hd =>
      cases (hc'.stop hc hk (scene_stops hn hd)).2
      exact absurd hm (scene_stops hn hd _)
    | nowhere hc' hk hn =>
      cases (hc'.stop hc hk (nowhere_stops hn)).2
      exact absurd hm (nowhere_stops hn _)
    | exhausted hc' hm' =>
      cases hc.split (l := 0) hc'
      exact ⟨rfl, rfl⟩

theorem pass_effect (t : Traversal) (next : Option NodeId) (work : Transit) :
    ∃ c, Effect t.play.project (t.place next) work c ∧
      t.pass work = (c.next, t.arrive c t.current) := by
  cases work with
  | update assignments link =>
    exact ⟨_, .update (writes_attempt t.play.store assignments), rfl⟩
  | conditional routes fallback => exact ⟨_, .conditional routes fallback, rfl⟩
  | probability routes =>
    cases h : drawRoute t.play.store routes t.play.source with
    | mk result source =>
      cases result with
      | ok id => exact ⟨_, .drawn h, by simp only [pass, h]; rfl⟩
      | error fault =>
        have hf : (drawRoute t.play.store routes t.play.source).1 = .error fault := by rw [h]
        have hs := (drawRoute_failed hf).2
        rw [h] at hs
        subst hs
        exact ⟨_, .undrawn hf, by simp only [pass, h]; rfl⟩
  | teleport name start =>
    cases h : t.play.project.experience name with
    | ok e => exact ⟨_, .teleport h, by simp only [pass, h]; rfl⟩
    | error fault => exact ⟨_, .stranded h, by simp only [pass, h]; rfl⟩

theorem walk_nowhere {t : Traversal} {next : Option NodeId} (budget : Nat)
    (h : (t.place next).node? = none) : walk budget next t = (.nowhere, t) := by
  change next.bind t.experience.node? = none at h
  unfold walk
  rw [h]

theorem walk_scene {t : Traversal} {next : Option NodeId} {node : Node} (budget : Nat)
    (h : (t.place next).node? = some node) (hd : node.isDisplayable) :
    walk budget next t = (.scene node, t) := by
  obtain ⟨s, hs⟩ := Node.displayable_iff.mp hd
  change next.bind t.experience.node? = some node at h
  unfold walk
  simp only [h, hs]

theorem walk_exhausted {t : Traversal} {next : Option NodeId} {work : Transit}
    (h : (t.place next).Meets work) : walk 0 next t = (.exhausted, t) := by
  obtain ⟨node, hn, hb⟩ := h
  change next.bind t.experience.node? = some node at hn
  unfold walk
  simp only [hn, hb]

theorem walk_pass {t : Traversal} {next : Option NodeId} {work : Transit} (budget : Nat)
    (h : (t.place next).Meets work) :
    walk (budget + 1) next t = walk budget (t.pass work).1 (t.pass work).2 := by
  obtain ⟨node, hn, hb⟩ := h
  change next.bind t.experience.node? = some node at hn
  conv_lhs => unfold walk
  simp only [hn, hb]

theorem walk_ends (budget : Nat) (next : Option NodeId) (t : Traversal) :
    ∃ c, Ends t.play.project budget (t.place next) (walk budget next t).1 c ∧
      (walk budget next t).2 = t.arrive c t.current := by
  -- What a step leaves of the budget is what the rest of the chain may use, so the place stays
  -- open.
  induction budget generalizing next t with
  | zero =>
    rcases (t.place next).node_cases with hn | ⟨node, hn, hd⟩ | ⟨work, hm⟩
    · rw [walk_nowhere _ hn]
      exact ⟨t.place next, .nowhere (.nil _) (Nat.zero_le _) hn, rfl⟩
    · rw [walk_scene _ hn hd]
      exact ⟨t.place next, .scene (.nil _) (Nat.zero_le _) hn hd, rfl⟩
    · rw [walk_exhausted hm]
      exact ⟨t.place next, .exhausted (.nil _) hm, rfl⟩
  | succ budget ih =>
    rcases (t.place next).node_cases with hn | ⟨node, hn, hd⟩ | ⟨work, hm⟩
    · rw [walk_nowhere _ hn]
      exact ⟨t.place next, .nowhere (.nil _) (Nat.zero_le _) hn, rfl⟩
    · rw [walk_scene _ hn hd]
      exact ⟨t.place next, .scene (.nil _) (Nat.zero_le _) hn hd, rfl⟩
    · obtain ⟨b, he, hp⟩ := pass_effect t next work
      obtain ⟨c, hc, hu⟩ := ih b.next (t.arrive b t.current)
      rw [walk_pass _ hm, hp]
      exact ⟨c, hc.cons ⟨work, hm, he⟩, hu⟩

/-- Everything that an advance can answer, with the traversal that it leaves. -/
inductive Advanced (t : Traversal) (choice : Option UInt64) :
    Except Fault Node → Traversal → Prop where
  | unset : t.current = none → Advanced t choice (.error .noCurrentNode) t
  | lost {id} : t.current = some id → t.experience.node? id = none →
      Advanced t choice (.error (.brokenChain id)) { t with current := none }
  | stuck {id node work} : t.current = some id → t.experience.node? id = some node →
      node.body = .transit work → Advanced t choice (.error (.cannotAdvance work.kind)) t
  | refused {id node options} : t.current = some id → t.experience.node? id = some node →
      node.body = .scene (.choice options) → (choice.bind fun i => options[i.toNat]?) = none →
      Advanced t choice (.error (.invalidChoice choice options.length)) t
  | ended {id node} : t.current = some id → t.experience.node? id = some node →
      node.body = .scene .ending → Advanced t choice (.error (.cannotAdvance .ending)) t
  | landed {origin next node c} : t.Leaves choice origin next →
      Ends t.play.project t.play.project.stepLimit.toNat (t.place next) (.scene node) c →
      Advanced t choice (.ok (node.fill c.store)) (t.arrive c (some node.id))
  | broke {origin next c} : t.Leaves choice origin next →
      Ends t.play.project t.play.project.stepLimit.toNat (t.place next) .nowhere c →
      Advanced t choice (.error (.brokenChain origin)) (t.arrive c none)
  | exceeded {origin next c} : t.Leaves choice origin next →
      Ends t.play.project t.play.project.stepLimit.toNat (t.place next) .exhausted c →
      t.play.project.stepLimit.toNat < 2 ^ 64 - 1 →
      Advanced t choice (.error (.stepLimit t.play.project.stepLimit)) (t.arrive c none)
  | overflowed {origin next c} : t.Leaves choice origin next →
      Ends t.play.project t.play.project.stepLimit.toNat (t.place next) .exhausted c →
      t.play.project.stepLimit.toNat = 2 ^ 64 - 1 →
      Advanced t choice (.error .stepOverflow) (t.arrive c t.current)

theorem advance_leaves {t : Traversal} {choice : Option UInt64} {origin : NodeId}
    {next : Option NodeId} (h : t.Leaves choice origin next) :
    t.advance choice = settle origin (walk t.play.project.stepLimit.toNat next t) := by
  obtain ⟨hc, node, s, hn, hb, hl⟩ := h
  simp [advance, hc, hn, hb, Scene.leave_ok_iff.mpr hl]

theorem settle_exhausted {t : Traversal} (origin : NodeId) (c : Place) (current : Option NodeId)
    (hl : t.play.project.stepLimit.toNat < 2 ^ 64 - 1) :
    settle origin (.exhausted, t.arrive c current) =
      (.error (.stepLimit t.play.project.stepLimit), t.arrive c none) := by
  have hlt : (t.arrive c current).play.project.stepLimit.toNat + 1 < UInt64.size := by
    change t.play.project.stepLimit.toNat + 1 < 2 ^ 64
    omega
  simp only [settle, if_pos hlt]
  rfl

theorem settle_overflowed {t : Traversal} (origin : NodeId) (c : Place) (current : Option NodeId)
    (hl : t.play.project.stepLimit.toNat = 2 ^ 64 - 1) :
    settle origin (.exhausted, t.arrive c current) =
      (.error .stepOverflow, t.arrive c current) := by
  have hge : ¬ (t.arrive c current).play.project.stepLimit.toNat + 1 < UInt64.size := by
    change ¬ t.play.project.stepLimit.toNat + 1 < 2 ^ 64
    omega
  simp only [settle, if_neg hge]

theorem advance_left {t : Traversal} {choice : Option UInt64} {origin : NodeId}
    {next : Option NodeId} (h : t.Leaves choice origin next) :
    Advanced t choice (t.advance choice).1 (t.advance choice).2 := by
  obtain ⟨c, he, hu⟩ := walk_ends t.play.project.stepLimit.toNat next t
  rw [advance_leaves h]
  cases hw : walk t.play.project.stepLimit.toNat next t with
  | mk r u =>
    rw [hw] at he hu
    subst hu
    cases r with
    | scene node => exact .landed h he
    | nowhere => exact .broke h he
    | exhausted =>
      by_cases hl : t.play.project.stepLimit.toNat < 2 ^ 64 - 1
      · rw [settle_exhausted origin c _ hl]
        exact .exceeded h he hl
      · have hlt := t.play.project.stepLimit.toNat_lt
        have hmax : t.play.project.stepLimit.toNat = 2 ^ 64 - 1 := by omega
        rw [settle_overflowed origin c _ hmax]
        exact .overflowed h he hmax

theorem advance_advanced (t : Traversal) (choice : Option UInt64) :
    Advanced t choice (t.advance choice).1 (t.advance choice).2 := by
  cases hc : t.current with
  | none =>
    have h : Advanced t choice (.error .noCurrentNode) t := .unset hc
    simpa [advance, hc] using h
  | some origin =>
    cases hn : t.experience.node? origin with
    | none =>
      have h : Advanced t choice (.error (.brokenChain origin)) { t with current := none } :=
        .lost hc hn
      simpa [advance, hc, hn] using h
    | some node =>
      cases hb : node.body with
      | transit work =>
        have h : Advanced t choice (.error (.cannotAdvance work.kind)) t := .stuck hc hn hb
        simpa [advance, hc, hn, hb] using h
      | scene s =>
        cases hs : s.leave choice with
        | error fault =>
          simp only [advance, hc, hn, hb, hs]
          rcases Scene.leave_error hs with ⟨options, rfl, hi, rfl⟩ | ⟨rfl, rfl⟩
          · exact .refused hc hn hb hi
          · exact .ended hc hn hb
        | ok next => exact advance_left ⟨hc, node, s, hn, hb, Scene.leave_ok_iff.mp hs⟩

theorem ends_exists (t : Traversal) (next : Option NodeId) (budget : Nat) :
    ∃ r c, Ends t.play.project budget (t.place next) r c := by
  obtain ⟨c, he, _⟩ := walk_ends budget next t
  exact ⟨_, c, he⟩

theorem advance_ends {t : Traversal} {choice : Option UInt64} {origin : NodeId}
    {next : Option NodeId} {r : Arrival} {c : Place} (h : t.Leaves choice origin next)
    (he : Ends t.play.project t.play.project.stepLimit.toNat (t.place next) r c) :
    t.advance choice = settle origin (r, t.arrive c t.current) := by
  obtain ⟨d, hd, hu⟩ := walk_ends t.play.project.stepLimit.toNat next t
  obtain ⟨hr, rfl⟩ := hd.unique he
  rw [advance_leaves h, ← hr, ← hu]

theorem Advanced.eq {t u : Traversal} {choice : Option UInt64} {r : Except Fault Node}
    (h : Advanced t choice r u) : t.advance choice = (r, u) := by
  cases h with
  | unset hc => simp [advance, hc]
  | lost hc hn => simp [advance, hc, hn]
  | stuck hc hn hb => simp [advance, hc, hn, hb]
  | refused hc hn hb hi => simp [advance, hc, hn, hb, Scene.leave, hi]
  | ended hc hn hb => simp [advance, hc, hn, hb, Scene.leave]
  | landed hl he => exact advance_ends hl he
  | broke hl he => exact advance_ends hl he
  | exceeded hl he hlt => rw [advance_ends hl he, settle_exhausted _ _ _ hlt]
  | overflowed hl he hmax => rw [advance_ends hl he, settle_overflowed _ _ _ hmax]

theorem advance_iff {t u : Traversal} {choice : Option UInt64} {r : Except Fault Node} :
    t.advance choice = (r, u) ↔ Advanced t choice r u := by
  constructor
  · intro h
    have ha := t.advance_advanced choice
    rwa [h] at ha
  · exact Advanced.eq

section Outcome

variable {t : Traversal} {choice : Option UInt64} {origin : NodeId} {next : Option NodeId}

theorem advance_ok_iff (hl : t.play.project.stepLimit.toNat < 2 ^ 64 - 1)
    (h : t.Leaves choice origin next) {n : Node} {u : Traversal} :
    t.advance choice = (.ok n, u) ↔ ∃ c node,
      Ends t.play.project t.play.project.stepLimit.toNat (t.place next) (.scene node) c ∧
      n = node.fill c.store ∧ u = t.arrive c (some node.id) := by
  constructor
  · intro ha
    obtain ⟨r, c, he⟩ := ends_exists t next t.play.project.stepLimit.toNat
    rw [advance_ends h he] at ha
    cases r with
    | scene node => cases ha; exact ⟨c, node, he, rfl, rfl⟩
    | nowhere => cases ha
    | exhausted => rw [settle_exhausted origin c _ hl] at ha; cases ha
  · rintro ⟨c, node, he, rfl, rfl⟩
    exact advance_ends h he

theorem advance_broken_iff (hl : t.play.project.stepLimit.toNat < 2 ^ 64 - 1)
    (h : t.Leaves choice origin next) {id : NodeId} {u : Traversal} :
    t.advance choice = (.error (.brokenChain id), u) ↔ id = origin ∧ ∃ c,
      Ends t.play.project t.play.project.stepLimit.toNat (t.place next) .nowhere c ∧
      u = t.arrive c none := by
  constructor
  · intro ha
    obtain ⟨r, c, he⟩ := ends_exists t next t.play.project.stepLimit.toNat
    rw [advance_ends h he] at ha
    cases r with
    | scene node => cases ha
    | nowhere => cases ha; exact ⟨rfl, c, he, rfl⟩
    | exhausted => rw [settle_exhausted origin c _ hl] at ha; cases ha
  · rintro ⟨rfl, c, he, rfl⟩
    exact advance_ends h he

theorem advance_exceeded_iff (hl : t.play.project.stepLimit.toNat < 2 ^ 64 - 1)
    (h : t.Leaves choice origin next) {limit : UInt64} {u : Traversal} :
    t.advance choice = (.error (.stepLimit limit), u) ↔
      limit = t.play.project.stepLimit ∧ ∃ c,
        Ends t.play.project t.play.project.stepLimit.toNat (t.place next) .exhausted c ∧
        u = t.arrive c none := by
  constructor
  · intro ha
    obtain ⟨r, c, he⟩ := ends_exists t next t.play.project.stepLimit.toNat
    rw [advance_ends h he] at ha
    cases r with
    | scene node => cases ha
    | nowhere => cases ha
    | exhausted =>
      rw [settle_exhausted origin c _ hl] at ha
      cases ha
      exact ⟨rfl, c, he, rfl⟩
  · rintro ⟨rfl, c, he, rfl⟩
    rw [advance_ends h he]
    exact settle_exhausted origin c _ hl

/-- An advance answers exactly what the chain behind its scene comes to within the limit: a scene,
nowhere, or one more transit node when the limit is used up. In each case it leaves the live state
of the place where the chain stands. -/
theorem advance_follows_chain (hl : t.play.project.stepLimit.toNat < 2 ^ 64 - 1)
    (h : t.Leaves choice origin next) :
    (∀ n u, t.advance choice = (.ok n, u) ↔ ∃ c node,
      (∃ k ≤ t.play.project.stepLimit.toNat, Chain t.play.project k (t.place next) c ∧
        c.node? = some node ∧ node.isDisplayable) ∧
      n = node.fill c.store ∧ u = t.arrive c (some node.id)) ∧
    (∀ id u, t.advance choice = (.error (.brokenChain id), u) ↔ id = origin ∧ ∃ c,
      (∃ k ≤ t.play.project.stepLimit.toNat, Chain t.play.project k (t.place next) c ∧
        c.node? = none) ∧
      u = t.arrive c none) ∧
    (∀ limit u, t.advance choice = (.error (.stepLimit limit), u) ↔
      limit = t.play.project.stepLimit ∧ ∃ c,
      (Chain t.play.project t.play.project.stepLimit.toNat (t.place next) c ∧
        ∃ work, c.Meets work) ∧
      u = t.arrive c none) ∧
    ((∃ n, (t.advance choice).1 = .ok n) ∨
      (t.advance choice).1 = .error (.brokenChain origin) ∨
      (t.advance choice).1 = .error (.stepLimit t.play.project.stepLimit)) := by
  refine ⟨fun n u => ?_, fun id u => ?_, fun limit u => ?_, ?_⟩
  · simpa only [ends_scene_iff] using advance_ok_iff hl h
  · simpa only [ends_nowhere_iff] using advance_broken_iff hl h
  · simpa only [ends_exhausted_iff] using advance_exceeded_iff hl h
  · obtain ⟨r, c, he⟩ := ends_exists t next t.play.project.stepLimit.toNat
    rw [advance_ends h he]
    cases r with
    | scene node => exact Or.inl ⟨_, rfl⟩
    | nowhere => exact Or.inr (Or.inl rfl)
    | exhausted =>
      rw [settle_exhausted origin c _ hl]
      exact Or.inr (Or.inr rfl)

end Outcome

end Traversal

/-- One transit node of each kind, one behind the other. -/
def cellar : Experience :=
  ⟨"Cellar", [⟨0, [], .scene (.start "Stairs" (some 1))⟩,
    ⟨1, [], .transit (.update [⟨"gold", "+", "5"⟩] (some 2))⟩,
    ⟨2, [], .transit (.conditional [⟨[⟨"gold", "≥", "10"⟩], .all, 3⟩] (some 5))⟩,
    ⟨3, [], .transit (.probability [⟨"0", 5⟩, ⟨"2", 4⟩])⟩,
    ⟨4, [], .transit (.teleport "Hall" "Gate")⟩,
    ⟨5, [], .scene .ending⟩]⟩

def hall : Experience :=
  ⟨"Hall", [⟨0, [], .scene (.start "Gate" (some 7))⟩,
    ⟨7, [], .scene (.choice [⟨"Rest", some 9⟩])⟩,
    ⟨9, [], .scene .ending⟩]⟩

def inn : Project where
  document := ⟨[cellar, hall], [⟨"gold", "7"⟩], []⟩
  experiences_distinct := by decide
  nodes_distinct := by decide
  variables_distinct := by decide
  stepLimit := 4

def onStairs : Traversal := ⟨.new inn (.cycle #[0]), cellar, some 0⟩

namespace Traversal

/-- The chain from the stairs uses up the limit of four and ends at the gate of the hall. -/
theorem stairs_follow_chain :
    inn.stepLimit.toNat < 2 ^ 64 - 1 ∧ onStairs.Leaves none 0 (some 1) ∧
    ∃ c node, (∃ k ≤ inn.stepLimit.toNat, Chain inn k (onStairs.place (some 1)) c ∧
      c.node? = some node ∧ node.isDisplayable) ∧
      ⟨0, [], .scene (.start "Gate" (some 7))⟩ = node.fill c.store ∧
      (onStairs.advance none).2 = onStairs.arrive c (some node.id) := by
  have hl : inn.stepLimit.toNat < 2 ^ 64 - 1 := by decide
  have h : onStairs.Leaves none 0 (some 1) :=
    ⟨rfl, _, _, rfl, rfl, .start "Stairs" (some 1)⟩
  have hok : (onStairs.advance none).1 = .ok ⟨0, [], .scene (.start "Gate" (some 7))⟩ := by
    decide +kernel
  have ha : onStairs.advance none =
      (.ok ⟨0, [], .scene (.start "Gate" (some 7))⟩, (onStairs.advance none).2) := by
    rw [← hok]
  exact ⟨hl, h, ((advance_follows_chain hl h).1 _ _).mp ha⟩

end Traversal
end Storyline

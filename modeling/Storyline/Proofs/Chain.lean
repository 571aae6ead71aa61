import Storyline.Traversal

/-! # Chains of transit nodes

The walk of an advance, one transit node at a time. A step reads the node that comes next and does
its work; a chain is a number of steps. The budget of a walk is compared with the length of its
chain only here: everything else is said of chains.
-/
namespace Storyline

/-- Where a walk stands: the live state that its transit nodes read and change, and the id that
comes next. -/
structure Place where
  experience : Experience
  store : Variables
  source : RandomSource
  next : Option NodeId

def Place.node? (c : Place) : Option Node := c.next.bind c.experience.node?

def Place.Meets (c : Place) (work : Transit) : Prop :=
  ∃ node, c.node? = some node ∧ node.body = .transit work

theorem Place.node_cases (c : Place) :
    c.node? = none ∨ (∃ node, c.node? = some node ∧ node.isDisplayable) ∨ ∃ work, c.Meets work := by
  cases hn : c.node? with
  | none => exact Or.inl rfl
  | some node =>
    cases hb : node.body with
    | scene s => exact Or.inr (Or.inl ⟨node, rfl, by simp [Node.isDisplayable, hb]⟩)
    | transit work => exact Or.inr (Or.inr ⟨work, node, hn, hb⟩)

/-- Assignments made from left to right, where those that fail are skipped. -/
inductive Writes : Variables → List Assignment → Variables → Prop where
  | nil (t) : Writes t [] t
  | write {t u v a rest} : t.assign a = .ok u → Writes u rest v → Writes t (a :: rest) v
  | skip {t v a rest fault} : t.assign a = .error fault → Writes t rest v → Writes t (a :: rest) v

/-- The work of one transit node. -/
inductive Effect (p : Project) (c : Place) : Transit → Place → Prop where
  | update {assignments link store} : Writes c.store assignments store →
      Effect p c (.update assignments link) { c with store, next := link }
  | conditional (routes fallback) :
      Effect p c (.conditional routes fallback) { c with next := c.store.route routes fallback }
  | drawn {routes id source} : drawRoute c.store routes c.source = (.ok id, source) →
      Effect p c (.probability routes) { c with source, next := some id }
  | undrawn {routes fault} : (drawRoute c.store routes c.source).1 = .error fault →
      Effect p c (.probability routes) { c with next := none }
  | teleport {name start e} : p.experience name = .ok e →
      Effect p c (.teleport name start)
        { c with experience := e, next := (e.start? start).map (·.id) }
  | stranded {name start fault} : p.experience name = .error fault →
      Effect p c (.teleport name start) { c with next := none }

def Step (p : Project) (a b : Place) : Prop := ∃ work, a.Meets work ∧ Effect p a work b

inductive Chain (p : Project) : Nat → Place → Place → Prop where
  | nil (c) : Chain p 0 c c
  | cons {k a b c} : Step p a b → Chain p k b c → Chain p (k + 1) a c

theorem writes_attempt (t : Variables) (assignments : List Assignment) :
    Writes t assignments (assignments.foldl Variables.attempt t) := by
  induction assignments generalizing t with
  | nil => exact .nil t
  | cons a rest ih =>
    rw [List.foldl_cons]
    cases h : t.assign a with
    | ok u =>
      have hu : t.attempt a = u := by simp [Variables.attempt, h]
      rw [hu]
      exact .write h (ih u)
    | error fault =>
      have ht : t.attempt a = t := by simp [Variables.attempt, h]
      rw [ht]
      exact .skip h (ih t)

theorem Writes.unique {t u v : Variables} {assignments : List Assignment}
    (hu : Writes t assignments u) (hv : Writes t assignments v) : u = v := by
  induction hu with
  | nil => cases hv; rfl
  | write h _ ih =>
    cases hv with
    | write h' hv =>
      cases h.symm.trans h'
      exact ih hv
    | skip h' hv => cases h.symm.trans h'
  | skip h _ ih =>
    cases hv with
    | write h' hv => cases h.symm.trans h'
    | skip h' hv => exact ih hv

theorem Place.Meets.unique {c : Place} {work other : Transit} (h : c.Meets work)
    (h' : c.Meets other) : work = other := by
  obtain ⟨node, hn, hb⟩ := h
  obtain ⟨node', hn', hb'⟩ := h'
  cases hn.symm.trans hn'
  exact Body.transit.inj (hb.symm.trans hb')

theorem Effect.unique {p : Project} {a b c : Place} {work : Transit} (hb : Effect p a work b)
    (hc : Effect p a work c) : b = c := by
  cases hb with
  | update hw => cases hc with | update hw' => rw [hw.unique hw']
  | conditional => cases hc; rfl
  | drawn hd =>
    cases hc with
    | drawn hd' => cases hd.symm.trans hd'; rfl
    | undrawn hd' => simp [hd] at hd'
  | undrawn hd =>
    cases hc with
    | drawn hd' => simp [hd'] at hd
    | undrawn => rfl
  | teleport he =>
    cases hc with
    | teleport he' => cases he.symm.trans he'; rfl
    | stranded he' => cases he.symm.trans he'
  | stranded he =>
    cases hc with
    | teleport he' => cases he.symm.trans he'
    | stranded => rfl

theorem Step.unique {p : Project} {a b c : Place} (hb : Step p a b) (hc : Step p a c) : b = c := by
  obtain ⟨work, hm, hb⟩ := hb
  obtain ⟨other, hm', hc⟩ := hc
  cases hm.unique hm'
  exact hb.unique hc

theorem chain_zero_iff {p : Project} {a c : Place} : Chain p 0 a c ↔ c = a := by
  constructor
  · intro h
    cases h
    rfl
  · rintro rfl
    exact .nil c

theorem Step.chain_iff {p : Project} {k : Nat} {a b c : Place} (hs : Step p a b) :
    Chain p (k + 1) a c ↔ Chain p k b c := by
  constructor
  · intro h
    cases h with
    | cons hs' hc =>
      cases hs.unique hs'
      exact hc
  · exact .cons hs

theorem Chain.snoc {p : Project} {k : Nat} {a b c : Place} (h : Chain p k a b) (hs : Step p b c) :
    Chain p (k + 1) a c := by
  induction h with
  | nil => exact .cons hs (.nil c)
  | cons hs' _ ih => exact .cons hs' (ih hs)

theorem Chain.split {p : Project} {k l : Nat} {a b c : Place} (hb : Chain p k a b)
    (hc : Chain p (k + l) a c) : Chain p l b c := by
  induction hb with
  | nil => simpa using hc
  | @cons k a b _ hs _ ih =>
    rw [Nat.add_right_comm] at hc
    cases hc with
    | cons hs' hc =>
      cases hs.unique hs'
      exact ih hc

theorem Chain.stop {p : Project} {k l : Nat} {a b c : Place} (hb : Chain p k a b)
    (hc : Chain p l a c) (hkl : k ≤ l) (hstop : ∀ work, ¬ b.Meets work) : k = l ∧ b = c := by
  obtain ⟨d, rfl⟩ := Nat.exists_eq_add_of_le hkl
  cases hb.split hc with
  | nil => exact ⟨rfl, rfl⟩
  | cons hs =>
    obtain ⟨work, hm, _⟩ := hs
    exact absurd hm (hstop work)

end Storyline

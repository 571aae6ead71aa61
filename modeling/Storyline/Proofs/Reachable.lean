import Storyline.Proofs.Advance
import Storyline.Proofs.Store
import Storyline.Session

/-! # Reachable sessions

A session starts on a fresh playthrough and changes with the calls of the host. `Called` says once
what a call can do, so an invariant of all sessions needs one case for each of its constructors.
-/
namespace Storyline

namespace Session

inductive Called (s : Session) : Command → Session → Prop where
  | asked (c) : Called s c s
  | closed (name) : Called s (.openExperience name) (.closed s.play)
  | opened {name t} : Traversal.new s.play name = .ok t →
      Called s (.openExperience name) (.opened t)
  | started {t} (name) : s = .opened t → Called s (.start name) (.opened (t.start name).2)
  | entered {t} (experience name) : s = .opened t →
      Called s (.enter experience name) (.opened (t.enter experience name).2)
  | advanced {t} (choice) : s = .opened t →
      Called s (.advance choice) (.opened (t.advance choice).2)
  | wrote {c u} : s.play.store.Written u → Called s c (s.setVariables u)
  | drew (routes) : Called s (.draw routes)
      (s.setPlay { s.play with source := (drawRoute s.play.store routes s.play.source).2 })

private theorem write_called {s : Session} {result : Except Fault Variables} {c : Command}
    (h : ∀ u, result = .ok u → s.play.store.Written u) : Called s c (s.write result).2 := by
  cases result with
  | ok u => exact .wrote (h u rfl)
  | error fault => exact .asked c

private theorem look_called (s : Session) (f : Traversal → Option Node) (c : Command) :
    Called s c (s.look f).2 := by
  cases s with
  | closed p => exact .asked c
  | opened t => exact .asked c

theorem perform_called (s : Session) (c : Command) : Called s c (s.perform c).2 := by
  cases c with
  | openExperience name =>
    cases h : Traversal.new s.play name with
    | ok t => simpa [perform, h] using Called.opened h
    | error fault => simpa [perform, h] using Called.closed name
  | start name =>
    cases s with
    | closed p => exact .asked _
    | opened t => exact .started name rfl
  | enter experience name =>
    cases s with
    | closed p => exact .asked _
    | opened t => exact .entered experience name rfl
  | advance choice =>
    cases s with
    | closed p => exact .asked _
    | opened t => exact .advanced choice rfl
  | current => exact look_called s _ _
  | node id => exact look_called s _ _
  | set name value => exact write_called fun _ h => .set h
  | assign a => exact write_called fun _ h => .assign h
  | reset => exact .wrote .reset
  | draw routes => exact .drew routes
  | get | substitute | compare | item | route | names | stepLimit | graph | rawNode | rawStart
  | lint => exact .asked _

end Session

namespace Traversal

theorem new_ok_iff {play : Playthrough} {name : String} {t : Traversal} :
    new play name = .ok t ↔ ∃ e, play.project.experience name = .ok e ∧ t = ⟨play, e, none⟩ := by
  unfold new
  cases play.project.experience name with
  | ok e => simp [Except.map, eq_comm]
  | error fault => simp [Except.map]

theorem start_play (t : Traversal) (name : String) : (t.start name).2.play = t.play := by
  unfold start
  split
  · rfl
  · dsimp only
    split <;> rfl

theorem enter_play (t : Traversal) (experience name : String) :
    (t.enter experience name).2.play = t.play := by
  unfold enter
  split
  · rfl
  · next e _ =>
    have hp := start_play { t with experience := e } name
    split <;> simp_all

theorem Advanced.project {t u : Traversal} {choice : Option UInt64} {r : Except Fault Node}
    (h : Advanced t choice r u) : u.play.project = t.play.project := by
  cases h <;> rfl

end Traversal

namespace Session

@[simp] theorem setPlay_play (s : Session) (p : Playthrough) : (s.setPlay p).play = p := by
  cases s <;> rfl

theorem Called.play_cases {s u : Session} {c : Command} (h : Called s c u) :
    u.play = s.play ∨
    (∃ t choice, s = .opened t ∧ u.play = (t.advance choice).2.play) ∨
    (∃ store, s.play.store.Written store ∧ u.play = { s.play with store }) ∨
    ∃ routes, u.play =
      { s.play with source := (drawRoute s.play.store routes s.play.source).2 } := by
  cases h with
  | asked => exact Or.inl rfl
  | closed => exact Or.inl rfl
  | opened ht =>
    obtain ⟨e, _, rfl⟩ := Traversal.new_ok_iff.mp ht
    exact Or.inl rfl
  | @started t name hs =>
    subst hs
    exact Or.inl (t.start_play name)
  | @entered t experience name hs =>
    subst hs
    exact Or.inl (t.enter_play experience name)
  | @advanced t choice hs => exact Or.inr (Or.inl ⟨t, choice, hs, rfl⟩)
  | @wrote c store hw =>
    refine Or.inr (Or.inr (Or.inl ⟨store, hw, ?_⟩))
    rw [setVariables, setPlay_play]
  | drew routes => exact Or.inr (Or.inr (Or.inr ⟨routes, setPlay_play _ _⟩))

theorem Called.project {s u : Session} {c : Command} (h : Called s c u) :
    u.play.project = s.play.project := by
  rcases h.play_cases with hp | ⟨t, choice, rfl, hp⟩ | ⟨store, _, hp⟩ | ⟨routes, hp⟩
  · rw [hp]
  · rw [hp]
    exact (t.advance_advanced choice).project
  · rw [hp]
  · rw [hp]

/-- The call comes back: its count of steps does not overflow. -/
def Returns (s : Session) (c : Command) : Prop :=
  ∀ t choice, s = .opened t → c = .advance choice → (t.advance choice).1 ≠ .error .stepOverflow

end Session

/-- The sessions that calls lead to from a fresh playthrough of a project. After a call that does
not return there is none. -/
inductive Reachable (p : Project) : Session → Prop where
  | fresh (source) : Reachable p (.closed (.new p source))
  | call {s c} : Reachable p s → s.Returns c → Reachable p (s.perform c).2

theorem Reachable.project {p : Project} {s : Session} (h : Reachable p s) :
    s.play.project = p := by
  induction h with
  | fresh => rfl
  | call _ _ ih => exact (Session.perform_called _ _).project.trans ih

theorem Traversal.Advanced.no_overflow {t u : Traversal} {choice : Option UInt64}
    {r : Except Fault Node} (h : Advanced t choice r u)
    (hl : t.play.project.stepLimit.toNat < 2 ^ 64 - 1) : r ≠ .error .stepOverflow := by
  cases h with
  | overflowed _ _ hg => omega
  | _ => simp

theorem Reachable.returns {p : Project} {s : Session} (h : Reachable p s)
    (hl : p.stepLimit.toNat < 2 ^ 64 - 1) (c : Command) : s.Returns c := by
  rintro t choice rfl _
  have hp : t.play.project = p := h.project
  exact (t.advance_advanced choice).no_overflow (by rwa [hp])

theorem Reachable.run {p : Project} (hret : ∀ {s}, Reachable p s → ∀ c, s.Returns c)
    {s : Session} (h : Reachable p s) (commands : List Command) :
    Reachable p (s.run commands).2 := by
  induction commands generalizing s with
  | nil => exact h
  | cons c rest ih => exact ih (h.call (hret h c))

end Storyline

import Mathlib.Logic.Function.Iterate
import Storyline.Proofs.Reachable

/-! # How the live state evolves

Whatever a session does to its live state is made of writes to the variables and of words taken
from the source. Neither touches what the project was loaded with, so a reset and a newly opened
experience bring back the fresh playthrough, but for the words that are gone.
-/
namespace Storyline

namespace RandomSource

def skip (source : RandomSource) (n : Nat) : RandomSource := (fun s => s.draw.2)^[n] source

theorem skip_draw (source : RandomSource) (n : Nat) :
    (source.skip n).draw.2 = source.skip (n + 1) :=
  (Function.iterate_succ_apply' (fun s : RandomSource => s.draw.2) n source).symm

end RandomSource

/-- Variables and source after some writes and draws. -/
inductive Evolves (t : Variables) (s : RandomSource) : Variables → RandomSource → Prop where
  | refl : Evolves t s t s
  | write {u v r} : Evolves t s u r → u.Written v → Evolves t s v r
  | draw {u r} : Evolves t s u r → Evolves t s u r.draw.2

namespace Evolves

variable {t u v : Variables} {s r q : RandomSource}

theorem trans (h : Evolves t s u r) (h' : Evolves u r v q) : Evolves t s v q := by
  induction h' with
  | refl => exact h
  | write _ hw ih => exact ih.write hw
  | draw _ ih => exact ih.draw

theorem names (h : Evolves t s u r) : u.names = t.names := by
  induction h with
  | refl => rfl
  | write _ hw ih =>
    obtain ⟨values, rfl⟩ := hw.update
    rw [Variables.update_names, ih]
  | draw _ ih => exact ih

theorem reset (h : Evolves t s u r) : u.reset = t.reset := by
  induction h with
  | refl => rfl
  | write _ hw ih =>
    obtain ⟨values, rfl⟩ := hw.update
    rw [Variables.update_reset, ih]
  | draw _ ih => exact ih

theorem source (h : Evolves t s u r) : ∃ n, r = s.skip n := by
  induction h with
  | refl => exact ⟨0, rfl⟩
  | write _ _ ih => exact ih
  | draw _ ih =>
    obtain ⟨n, rfl⟩ := ih
    exact ⟨n + 1, s.skip_draw n⟩

end Evolves

theorem Writes.evolves {t u : Variables} {assignments : List Assignment}
    (h : Writes t assignments u) (s : RandomSource) : Evolves t s u s := by
  induction h with
  | nil => exact .refl
  | write ha _ ih => exact (Evolves.refl.write (.assign ha)).trans ih
  | skip _ _ ih => exact ih

theorem drawRoute_evolves (t : Variables) (routes : List ChanceRoute) (s : RandomSource) :
    Evolves t s t (drawRoute t routes s).2 := by
  rcases drawRoute_cases t routes s with ⟨_, h⟩ | ⟨_, _, _, h⟩
  · rw [h]
    exact .refl
  · rw [h]
    exact Evolves.refl.draw

theorem Effect.evolves {p : Project} {a b : Place} {work : Transit} (h : Effect p a work b) :
    Evolves a.store a.source b.store b.source := by
  cases h with
  | update hw => exact hw.evolves a.source
  | @drawn routes id source hd =>
    have he := drawRoute_evolves a.store routes a.source
    rwa [hd] at he
  | _ => exact .refl

theorem Chain.evolves {p : Project} {k : Nat} {a c : Place} (h : Chain p k a c) :
    Evolves a.store a.source c.store c.source := by
  induction h with
  | nil => exact .refl
  | cons hs _ ih =>
    obtain ⟨work, _, he⟩ := hs
    exact he.evolves.trans ih

theorem Traversal.Advanced.evolves {t u : Traversal} {choice : Option UInt64}
    {r : Except Fault Node} (h : Advanced t choice r u) :
    Evolves t.play.store t.play.source u.play.store u.play.source := by
  have hends : ∀ {next arrival c},
      Ends t.play.project t.play.project.stepLimit.toNat (t.place next) arrival c →
      Evolves t.play.store t.play.source c.store c.source := by
    intro next arrival c he
    obtain ⟨k, _, hc⟩ := he.chain
    exact hc.evolves
  cases h with
  | landed _ he => exact hends he
  | broke _ he => exact hends he
  | exceeded _ he => exact hends he
  | overflowed _ he => exact hends he
  | _ => exact .refl

theorem Session.Called.evolves {s u : Session} {c : Command} (h : Called s c u) :
    Evolves s.play.store s.play.source u.play.store u.play.source := by
  rcases h.play_cases with hp | ⟨t, choice, rfl, hp⟩ | ⟨store, hw, hp⟩ | ⟨routes, hp⟩
  · rw [hp]
    exact .refl
  · rw [hp]
    exact (t.advance_advanced choice).evolves
  · rw [hp]
    exact Evolves.refl.write hw
  · rw [hp]
    exact drawRoute_evolves s.play.store routes s.play.source

theorem Reachable.names {p : Project} {s : Session} (h : Reachable p s) :
    s.play.store.names = p.store.names := by
  induction h with
  | fresh => rfl
  | call _ _ ih => exact (Session.perform_called _ _).evolves.names.trans ih

namespace Session

theorem run_evolves (s : Session) (commands : List Command) :
    (s.run commands).2.play.project = s.play.project ∧
      Evolves s.play.store s.play.source (s.run commands).2.play.store
        (s.run commands).2.play.source := by
  induction commands generalizing s with
  | nil => exact ⟨rfl, .refl⟩
  | cons c rest ih =>
    obtain ⟨hp, he⟩ := ih (s.perform c).2
    have hc := s.perform_called c
    exact ⟨hp.trans hc.project, hc.evolves.trans he⟩

theorem perform_open {s u : Session} (h : s.play = u.play) (name : String) :
    s.perform (.openExperience name) = u.perform (.openExperience name) := by
  simp only [perform, h]

end Session

theorem Project.store_reset (p : Project) : p.store.reset = p.store := by
  simp [Project.store, Variables.ofEntries, Variables.reset, Variables.update, Function.comp_def]

/-- Whatever was played, a reset and a newly opened experience start a fresh playthrough: every
later call answers as on the project just loaded, with the words already drawn missing from its
source. -/
theorem reset_plays_afresh (p : Project) (source : RandomSource) (history : List Command)
    (name : String) (later : List Command) :
    ∃ n, ((Session.closed (.new p source)).run history).2.play.source = source.skip n ∧
      (((Session.closed (.new p source)).run history).2.perform .reset).2.run
          (.openExperience name :: later) =
        (Session.closed (.new p (source.skip n))).run (.openExperience name :: later) := by
  obtain ⟨hp, he⟩ := (Session.closed (.new p source)).run_evolves history
  generalize ((Session.closed (.new p source)).run history).2 = s at hp he
  obtain ⟨n, hn⟩ := he.source
  refine ⟨n, hn, ?_⟩
  have hreset : s.play.store.reset = p.store := he.reset.trans p.store_reset
  have hplay : (s.perform .reset).2.play = .new p (source.skip n) :=
    calc (s.perform .reset).2.play
        = ⟨s.play.project, s.play.store.reset, s.play.source⟩ := Session.setPlay_play s _
      _ = .new p (source.skip n) := by rw [hp, hreset, hn]; rfl
  have hopen := Session.perform_open (u := .closed (.new p (source.skip n))) hplay name
  simp only [Session.run, hopen]

end Storyline

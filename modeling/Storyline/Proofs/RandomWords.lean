import Storyline.Proofs.Cursor
import Storyline.Proofs.LintStatic
import Storyline.Proofs.Selections

/-! # Random words

A word is taken from the source for each draw that has a route to choose, and for nothing else. What
a session answers depends on the words that it takes and on no others: from a second source that
holds the same words next, it answers the same and takes as many.
-/
namespace Storyline

namespace RandomSource

def Agrees (s o : RandomSource) (n : Nat) : Prop :=
  ∀ i < n, o.word (o.taken + i) = s.word (s.taken + i)

theorem skip_eq (s : RandomSource) (n : Nat) : s.skip n = { s with taken := s.taken + n } := by
  induction n with
  | zero => rfl
  | succ n ih =>
    rw [← skip_draw, ih]
    rfl

theorem skip_add (s : RandomSource) (m n : Nat) : s.skip (m + n) = (s.skip m).skip n := by
  simp only [skip_eq, Nat.add_assoc]

theorem Agrees.left {s o : RandomSource} {m n : Nat} (h : s.Agrees o (m + n)) : s.Agrees o m :=
  fun i hi => h i (by omega)

theorem Agrees.right {s o : RandomSource} {m n : Nat} (h : s.Agrees o (m + n)) :
    (s.skip m).Agrees (o.skip m) n := by
  intro i hi
  rw [skip_eq, skip_eq]
  have hword := h (m + i) (by omega)
  rwa [← Nat.add_assoc, ← Nat.add_assoc] at hword

end RandomSource

class HoldsSource (σ : Type) where
  source : σ → RandomSource
  withSource : σ → RandomSource → σ
  source_withSource (x : σ) (s : RandomSource) : source (withSource x s) = s
  withSource_source (x : σ) : withSource x (source x) = x
  withSource_withSource (x : σ) (s o : RandomSource) :
    withSource (withSource x s) o = withSource x o

open HoldsSource

instance : HoldsSource RandomSource where
  source s := s
  withSource _ o := o
  source_withSource _ _ := rfl
  withSource_source _ := rfl
  withSource_withSource _ _ _ := rfl

instance : HoldsSource Traversal where
  source t := t.play.source
  withSource t o := { t with play.source := o }
  source_withSource _ _ := rfl
  withSource_source _ := rfl
  withSource_withSource _ _ _ := rfl

instance : HoldsSource Session where
  source s := s.play.source
  withSource s o := s.setPlay { s.play with source := o }
  source_withSource s _ := by cases s <;> rfl
  withSource_source s := by cases s <;> rfl
  withSource_withSource s _ _ := by cases s <;> rfl

/-- In the state `x`, `f` takes `n` words. From another source that holds the same words next, it
answers the same, and leaves the same state but for the source. -/
structure Takes {σ α : Type} [HoldsSource σ] (f : σ → α × σ) (x : σ) (n : Nat) : Prop where
  words : source (f x).2 = (source x).skip n
  same : ∀ o, (source x).Agrees o n → f (withSource x o) = ((f x).1, withSource (f x).2 (o.skip n))

namespace Takes

variable {σ α β : Type} [HoldsSource σ] {f g : σ → α × σ} {x : σ} {m n : Nat}

theorem quiet (a : α) (y : σ) (h : ∀ o, f (withSource x o) = (a, withSource y o)) :
    Takes f x 0 := by
  have hx : f x = (a, withSource y (source x)) := by
    have hself := h (source x)
    rwa [withSource_source] at hself
  refine ⟨?_, fun o _ => ?_⟩
  · rw [hx, source_withSource]
    rfl
  · rw [hx, h, withSource_withSource]
    rfl

theorem congr (h : Takes g x n) (hfg : ∀ o, f (withSource x o) = g (withSource x o)) :
    Takes f x n := by
  have hx : f x = g x := by
    have hself := hfg (source x)
    rwa [withSource_source] at hself
  refine ⟨?_, fun o ho => ?_⟩
  · rw [hx]
    exact h.words
  · rw [hx, hfg]
    exact h.same o ho

theorem within {τ : Type} [HoldsSource τ] {h : τ → β × τ} {y : τ} (hh : Takes h y n)
    (hy : source y = source x) (reply : β → α) (wrap : τ → σ)
    (hsource : ∀ y, source (wrap y) = source y)
    (hwrap : ∀ y o, withSource (wrap y) o = wrap (withSource y o))
    (hf : ∀ o, f (withSource x o) = (reply (h (withSource y o)).1, wrap (h (withSource y o)).2)) :
    Takes f x n := by
  have hx : f x = (reply (h y).1, wrap (h y).2) := by
    have hself := hf (source x)
    rwa [withSource_source, ← hy, withSource_source] at hself
  refine ⟨?_, fun o ho => ?_⟩
  · rw [hx, hsource, hh.words, hy]
  · rw [hx, hf, hh.same o (hy ▸ ho), hwrap]

theorem bind {g : α → σ → β × σ} (hf : Takes f x m) (hg : Takes (g (f x).1) (f x).2 n) :
    Takes (fun x => g (f x).1 (f x).2) x (m + n) := by
  refine ⟨?_, fun o ho => ?_⟩
  · rw [hg.words, hf.words, RandomSource.skip_add]
  · have hagree : (source (f x).2).Agrees (o.skip m) n := by
      rw [hf.words]
      exact ho.right
    rw [hf.same o ho.left, RandomSource.skip_add]
    exact hg.same _ hagree

end Takes

theorem drawRoute_takes (t : Variables) (routes : List ChanceRoute) (s : RandomSource) :
    Takes (drawRoute t routes) s (Selection.successes [⟨t, routes⟩]) := by
  cases hw : t.weighted routes with
  | nil =>
    have hcount : Selection.successes [⟨t, routes⟩] = 0 := by
      simp [Selection.successes, Selection.succeeds_iff, hw]
    have hdraw : ∀ o, drawRoute t routes o = (.error .noUsableRoute, o) := by
      intro o
      simp only [drawRoute, hw]
    rw [hcount]
    exact .quiet _ s hdraw
  | cons first rest =>
    have hcount : Selection.successes [⟨t, routes⟩] = 1 := by
      simp [Selection.successes, Selection.succeeds_iff, hw]
    rw [hcount]
    refine ⟨?_, fun o ho => ?_⟩
    · simp only [drawRoute, hw]
      rfl
    -- The weights are read before the word is, so only the sample depends on the source.
    · have hword : o.word o.taken = s.word s.taken := ho 0 Nat.one_pos
      have hdraw : o.draw.1 = s.draw.1 := by simp only [RandomSource.draw, hword]
      change drawRoute t routes o = ((drawRoute t routes s).1, o.draw.2)
      simp only [drawRoute, hw, hdraw]

namespace Traversal

theorem pass_takes (t : Traversal) (work : Transit) :
    Takes (·.pass work) t (Selection.successes (t.selection work)) := by
  cases work with
  | update assignments link =>
    exact .quiet link (t.pass (.update assignments link)).2 fun _ => rfl
  | conditional routes fallback =>
    exact .quiet (t.play.store.route routes fallback) t fun _ => rfl
  | teleport name start =>
    refine .quiet (t.pass (.teleport name start)).1 (t.pass (.teleport name start)).2 fun o => ?_
    cases he : t.play.project.experience name <;> simp only [pass, he, withSource]
  | probability routes =>
    refine (drawRoute_takes t.play.store routes t.play.source).within rfl Except.toOption
      (withSource t) (fun _ => rfl) (fun _ _ => rfl) fun o => ?_
    cases hd : drawRoute t.play.store routes o with
    | mk result source => cases result <;> simp only [pass, withSource, hd] <;> rfl

theorem walk_takes (budget : Nat) (next : Option NodeId) (t : Traversal) :
    Takes (walk budget next) t (Selection.successes (walkSelections budget next t)) := by
  -- Which draws are still to come is told by the words already taken, and these are the same in
  -- both runs, so the place stays open.
  induction budget generalizing next t with
  | zero =>
    rcases (t.place next).node_cases with hn | ⟨node, hn, hd⟩ | ⟨work, hm⟩
    · exact .quiet _ t fun o => walk_nowhere (t := withSource t o) 0 hn
    · exact .quiet _ t fun o => walk_scene (t := withSource t o) 0 hn hd
    · exact .quiet _ t fun o => walk_exhausted (t := withSource t o) hm
  | succ budget ih =>
    rcases (t.place next).node_cases with hn | ⟨node, hn, hd⟩ | ⟨work, hm⟩
    · rw [walkSelections_stop _ (nowhere_stops hn)]
      exact .quiet _ t fun o => walk_nowhere (t := withSource t o) _ hn
    · rw [walkSelections_stop _ (scene_stops hn hd)]
      exact .quiet _ t fun o => walk_scene (t := withSource t o) _ hn hd
    · rw [walkSelections_pass _ hm, Selection.successes_append]
      refine ((pass_takes t work).bind (ih _ _)).congr fun o => ?_
      exact walk_pass (t := withSource t o) _ hm

theorem settle_takes (origin : NodeId) (r : Arrival) (t : Traversal) :
    Takes (fun t => settle origin (r, t)) t 0 := by
  refine .quiet (settle origin (r, t)).1 (settle origin (r, t)).2 fun o => ?_
  cases r with
  | scene node => rfl
  | nowhere => rfl
  | exhausted =>
    by_cases hl : t.play.project.stepLimit.toNat + 1 < UInt64.size
      <;> simp only [settle, withSource, hl] <;> rfl

theorem advance_takes (t : Traversal) (choice : Option UInt64) :
    Takes (·.advance choice) t (Selection.successes (t.selections choice)) := by
  cases hc : t.current with
  | none =>
    have hnone : t.selections choice = [] := by simp only [selections, hc, Option.bind_none]
    rw [hnone]
    refine .quiet (.error .noCurrentNode) t fun o => ?_
    simp only [advance, withSource, hc]
  | some origin =>
    cases hn : t.experience.node? origin with
    | none =>
      have hnone : t.selections choice = [] := by
        simp only [selections, hc, Option.bind_some, hn]
      rw [hnone]
      refine .quiet (.error (.brokenChain origin)) { t with current := none } fun o => ?_
      simp only [advance, withSource, hc, hn]
    | some node =>
      cases hb : node.body with
      | transit work =>
        have hnone : t.selections choice = [] := by
          simp only [selections, hc, Option.bind_some, hn, hb]
        rw [hnone]
        refine .quiet (.error (.cannotAdvance work.kind)) t fun o => ?_
        simp only [advance, withSource, hc, hn, hb]
      | scene s =>
        cases hl : s.leave choice with
        | error fault =>
          have hnone : t.selections choice = [] := by
            simp only [selections, hc, Option.bind_some, hn, hb, hl]
          rw [hnone]
          refine .quiet (.error fault) t fun o => ?_
          simp only [advance, withSource, hc, hn, hb, hl]
        | ok next =>
          rw [selections_leaves ⟨hc, node, s, hn, hb, Scene.leave_ok_iff.mp hl⟩]
          refine ((walk_takes _ next t).bind (g := fun r u => settle origin (r, u))
            (settle_takes origin _ _)).congr fun o => ?_
          simp only [advance, withSource, hc, hn, hb, hl]

theorem start_takes (t : Traversal) (name : String) : Takes (·.start name) t 0 := by
  refine .quiet (t.start name).1 (t.start name).2 fun o => ?_
  cases hs : t.experience.start? name with
  | none => simp only [start, withSource, hs]
  | some first =>
    have hnode : node? { t with play.source := o, current := some first.id } first.id =
        node? { t with current := some first.id } first.id := rfl
    cases hn : node? { t with current := some first.id } first.id <;>
      simp only [start, withSource, hs, hnode, hn]

theorem enter_takes (t : Traversal) (experience name : String) :
    Takes (·.enter experience name) t 0 := by
  cases he : t.play.project.experience experience with
  | error fault => exact .quiet (.error fault) t fun o => enter_unknown (t := withSource t o) he
  | ok e =>
    cases hs : e.start? name with
    | none =>
      exact .quiet (.error (.unknownStart name e.name)) t fun o =>
        enter_missing (t := withSource t o) he hs
    | some node =>
      exact .quiet (.ok (node.fill t.play.store))
        { t with experience := e, current := some node.id } fun o =>
        enter_found (t := withSource t o) he hs

end Traversal

namespace Session

theorem write_takes (s : Session) (result : Except Fault Variables) :
    Takes (·.write result) s 0 := by
  cases result with
  | ok t => exact .quiet .done (s.setVariables t) fun o => by cases s <;> rfl
  | error fault => exact .quiet (.fault fault) s fun _ => rfl

theorem move_takes {t : Traversal} {f : Traversal → Except Fault Node × Traversal} {n : Nat}
    (h : Takes f t n) : Takes (·.move f) (Session.opened t) n :=
  h.within rfl (.ofExcept (.node ∘ some)) Session.opened (fun _ => rfl) (fun _ _ => rfl)
    fun _ => rfl

theorem withSource_play (s : Session) (o : RandomSource) :
    (withSource s o).play = { s.play with source := o } := s.setPlay_play _

theorem open_takes (s : Session) (name : String) :
    Takes (·.perform (.openExperience name)) s 0 := by
  cases he : s.play.project.experience name with
  | error fault =>
    refine .quiet (.fault fault) (.closed s.play) fun o => ?_
    simp only [perform, Traversal.new, withSource_play, he, Except.map]
    rfl
  | ok e =>
    refine .quiet .done (.opened ⟨s.play, e, none⟩) fun o => ?_
    simp only [perform, Traversal.new, withSource_play, he, Except.map]
    rfl

theorem lint_takes (s : Session) : Takes (·.perform .lint) s 0 := by
  refine .quiet (.report s.play.lint) s fun o => ?_
  have hlint : (withSource s o).play.lint = s.play.lint := by
    rw [withSource_play]
    exact Playthrough.lint_of_store rfl rfl
  simp only [perform, hlint]

theorem perform_takes (s : Session) (c : Command) :
    Takes (·.perform c) s (Selection.successes (s.selections c)) := by
  have hquiet (h : ∀ o, (withSource s o).perform c =
      ((s.perform c).1, withSource (s.perform c).2 o)) : Takes (·.perform c) s 0 :=
    .quiet _ _ h
  cases c with
  | openExperience name => exact s.open_takes name
  | start name =>
    cases s with
    | closed p => exact hquiet fun _ => rfl
    | opened t => exact move_takes (t.start_takes name)
  | enter experience name =>
    cases s with
    | closed p => exact hquiet fun _ => rfl
    | opened t => exact move_takes (t.enter_takes experience name)
  | advance choice =>
    cases s with
    | closed p => exact hquiet fun _ => rfl
    | opened t => exact move_takes (t.advance_takes choice)
  | set name value =>
    exact (s.write_takes (s.play.store.set name value)).congr fun o => by cases s <;> rfl
  | reset => exact (s.write_takes (.ok s.play.store.reset)).congr fun o => by cases s <;> rfl
  | assign a => exact (s.write_takes (s.play.store.assign a)).congr fun o => by cases s <;> rfl
  | draw routes =>
    exact (drawRoute_takes s.play.store routes s.play.source).within rfl
      (.ofExcept (.link ∘ some)) (withSource s) (source_withSource s) (withSource_withSource s)
      fun o => by cases s <;> rfl
  | lint => exact s.lint_takes
  | _ => exact hquiet fun o => by cases s <;> rfl

theorem run_takes (s : Session) (commands : List Command) :
    Takes (·.run commands) s (Selection.successes (s.runSelections commands)) := by
  induction commands generalizing s with
  | nil => exact .quiet [] s fun _ => rfl
  | cons c rest ih =>
    have hrest : ∀ (reply : Reply) (u : Session),
        Takes (fun u => (reply :: (u.run rest).1, (u.run rest).2)) u
          (Selection.successes (u.runSelections rest)) := fun reply u =>
      (ih u).within rfl (reply :: ·) id (fun _ => rfl) (fun _ _ => rfl) fun _ => rfl
    rw [runSelections, Selection.successes_append]
    refine ((s.perform_takes c).bind (g := fun reply u => (reply :: (u.run rest).1, (u.run rest).2))
      (hrest _ _)).congr fun _ => rfl

end Session

open Classical in
/-- As many words are taken as routes are drawn, however the calls end. From any source that begins
with the same words, the same calls answer and leave the same, and take as many. The draws of an
advance are the places of its chain, within the limit, at which a route is drawn. -/
theorem words_taken_by_draws (p : Project) (source : RandomSource) (commands : List Command) :
    let loaded := Session.closed (.new p source)
    let n := Selection.successes (loaded.runSelections commands)
    let s := (loaded.run commands).2
    s.play.source = { source with taken := source.taken + n } ∧
    (∀ other, source.Agrees other n →
      (Session.closed (.new p other)).run commands =
        ((loaded.run commands).1,
          s.setPlay { s.play with source := { other with taken := other.taken + n } })) ∧
    ∀ t choice origin next, s = .opened t → t.Leaves choice origin next →
      Selection.successes (s.selections (.advance choice)) =
        Nat.count (fun k => ∃ c, Chain p k (t.place next) c ∧ c.Draws) p.stepLimit.toNat := by
  intro loaded n s
  have h : Takes (·.run commands) loaded n := loaded.run_takes commands
  refine ⟨?_, fun other ho => ?_, fun t choice origin next hs hl => ?_⟩
  · exact h.words.trans (source.skip_eq n)
  · rw [← RandomSource.skip_eq]
    exact h.same other ho
  · have hp : s.play.project = p := (loaded.run_evolves commands).1
    rw [hs] at hp ⊢
    have hproject : t.play.project = p := hp
    have hwalk : (Session.opened t).selections (.advance choice) =
        Traversal.walkSelections p.stepLimit.toNat next t := by
      rw [← hproject]
      exact Traversal.selections_leaves hl
    rw [hwalk, Traversal.successes_walkSelections, hproject]

/-- Of these draws, the one behind the stairs and the last find a route. -/
def cellarDraws : List Command :=
  [.openExperience "Cellar", .start "Stairs", .draw [], .advance none, .draw [⟨"none", 1⟩],
    .draw [⟨"-1", 2⟩, ⟨"gold", 3⟩]]

open Classical in
theorem cellar_words_taken :
    Selection.successes ((Session.closed (.new inn (.cycle #[0]))).runSelections cellarDraws) = 2 ∧
    (∃ other, RandomSource.Agrees (.cycle #[0]) other 2 ∧ other.word 2 ≠ 0 ∧
      ((Session.closed (.new inn other)).run cellarDraws).1 =
        ((Session.closed (.new inn (.cycle #[0]))).run cellarDraws).1 ∧
      ((Session.closed (.new inn other)).run cellarDraws).2.play.source =
        { other with taken := 2 }) ∧
    onStairs.Leaves none 0 (some 1) ∧
    Nat.count (fun k => ∃ c, Chain inn k (onStairs.place (some 1)) c ∧ c.Draws)
      inn.stepLimit.toNat = 1 := by
  have hcount : Selection.successes
      ((Session.closed (.new inn (.cycle #[0]))).runSelections cellarDraws) = 2 := by
    decide +kernel
  let other : RandomSource := ⟨fun i => if i < 2 then 0 else 7, 0⟩
  have hagrees : RandomSource.Agrees (.cycle #[0]) other 2 := by
    intro i hi
    have hother : other.word (other.taken + i) = 0 := by simp [other, hi]
    rw [hother]
    simp [RandomSource.cycle, Nat.mod_one]
  have hrun := (words_taken_by_draws inn (.cycle #[0]) cellarDraws).2.1 other (hcount ▸ hagrees)
  rw [hcount] at hrun
  have hleaves : onStairs.Leaves none 0 (some 1) :=
    ⟨rfl, _, _, rfl, rfl, .start "Stairs" (some 1)⟩
  have hpassed : Selection.successes (onStairs.selections none) = 1 := by decide +kernel
  have hchain := (words_taken_by_draws inn (.cycle #[0]) (cellarDraws.take 2)).2.2 onStairs none 0
    (some 1) rfl hleaves
  refine ⟨hcount, ⟨other, hagrees, by decide, ?_, ?_⟩, hleaves, hchain.symm.trans hpassed⟩
  · rw [hrun]
  · rw [hrun, Session.setPlay_play]

end Storyline

import Storyline.Proofs.Reachable

/-! # The cursor rests on scenes

The cursor is an id and means something only together with the open experience, and the two are
changed apart. `Placed` ties them together; every call that returns keeps it, whether it succeeds
or fails.
-/
namespace Storyline

/-- The open experience belongs to the project, and the cursor is unset or on one of its scenes. -/
structure Traversal.Placed (t : Traversal) : Prop where
  opened : t.experience ∈ t.play.project.experiences
  resting : ∀ id, t.current = some id →
    ∃ node, t.experience.node? id = some node ∧ node.isDisplayable

theorem Place.node_id {c : Place} {node : Node} (h : c.node? = some node) :
    c.experience.node? node.id = some node := by
  obtain ⟨id, _, hn⟩ := Option.bind_eq_some_iff.mp h
  rw [(Experience.node_mem hn).2]
  exact hn

theorem Effect.opened {p : Project} {a b : Place} {work : Transit} (h : Effect p a work b)
    (ha : a.experience ∈ p.experiences) : b.experience ∈ p.experiences := by
  cases h with
  | teleport he => exact Project.experience_mem he
  | _ => exact ha

theorem Chain.opened {p : Project} {k : Nat} {a c : Place} (h : Chain p k a c)
    (ha : a.experience ∈ p.experiences) : c.experience ∈ p.experiences := by
  induction h with
  | nil => exact ha
  | cons hs _ ih =>
    obtain ⟨work, _, he⟩ := hs
    exact ih (he.opened ha)

namespace Traversal

theorem new_placed {play : Playthrough} {name : String} {t : Traversal}
    (h : new play name = .ok t) : t.Placed := by
  obtain ⟨e, he, rfl⟩ := new_ok_iff.mp h
  exact ⟨Project.experience_mem he, by simp⟩

theorem start_found {t : Traversal} (ht : t.experience ∈ t.play.project.experiences)
    {name : String} {node : Node} (h : t.experience.start? name = some node) :
    t.start name = (.ok (node.fill t.play.store), { t with current := some node.id }) := by
  have hn : ({ t with current := some node.id } : Traversal).node? node.id =
      some (node.fill t.play.store) := by
    simp [node?, Project.start_resolves ht h]
  simp [start, h, hn]

theorem start_missing {t : Traversal} {name : String} (h : t.experience.start? name = none) :
    t.start name = (.error (.unknownStart name t.experience.name), t) := by
  simp [start, h]

section Enter

variable {t : Traversal} {experience name : String} {e : Experience}

theorem enter_unknown {fault : Fault} (he : t.play.project.experience experience = .error fault) :
    t.enter experience name = (.error fault, t) := by
  simp [enter, he]

theorem enter_missing (he : t.play.project.experience experience = .ok e)
    (hs : e.start? name = none) :
    t.enter experience name = (.error (.unknownStart name e.name), t) := by
  have hm : start { t with experience := e } name =
      (.error (.unknownStart name e.name), { t with experience := e }) := start_missing hs
  simp [enter, he, hm]

theorem enter_found {node : Node} (he : t.play.project.experience experience = .ok e)
    (hs : e.start? name = some node) :
    t.enter experience name = (.ok (node.fill t.play.store),
      { t with experience := e, current := some node.id }) := by
  have hf : start { t with experience := e } name = (.ok (node.fill t.play.store),
      { t with experience := e, current := some node.id }) :=
    start_found (Project.experience_mem he) hs
  simp [enter, he, hf]

end Enter

theorem enter_cases (t : Traversal) (experience name : String) :
    (∃ fault, t.play.project.experience experience = .error fault ∧
      t.enter experience name = (.error fault, t)) ∨
    (∃ e, t.play.project.experience experience = .ok e ∧ e.start? name = none ∧
      t.enter experience name = (.error (.unknownStart name e.name), t)) ∨
    (∃ e node, t.play.project.experience experience = .ok e ∧ e.start? name = some node ∧
      t.enter experience name = (.ok (node.fill t.play.store),
        { t with experience := e, current := some node.id })) := by
  cases he : t.play.project.experience experience with
  | error fault => exact Or.inl ⟨fault, rfl, enter_unknown he⟩
  | ok e =>
    cases hs : e.start? name with
    | none => exact Or.inr (Or.inl ⟨e, rfl, hs, enter_missing he hs⟩)
    | some node => exact Or.inr (Or.inr ⟨e, node, rfl, hs, enter_found he hs⟩)

theorem start_placed {t : Traversal} (ht : t.Placed) (name : String) :
    (t.start name).2.Placed := by
  cases hs : t.experience.start? name with
  | none => simpa [start_missing hs] using ht
  | some node =>
    rw [start_found ht.opened hs]
    refine ⟨ht.opened, ?_⟩
    rintro id ⟨⟩
    exact Project.start_rests ht.opened hs

theorem enter_placed {t : Traversal} (ht : t.Placed) (experience name : String) :
    (t.enter experience name).2.Placed := by
  rcases t.enter_cases experience name with ⟨fault, _, h⟩ | ⟨e, _, _, h⟩ | ⟨e, node, he, hs, h⟩
  · simpa [h] using ht
  · simpa [h] using ht
  · rw [h]
    have ho := Project.experience_mem he
    refine ⟨ho, ?_⟩
    rintro id ⟨⟩
    exact Project.start_rests ho hs

theorem Advanced.placed {t u : Traversal} {choice : Option UInt64} {r : Except Fault Node}
    (h : Advanced t choice r u) (ht : t.Placed) (hr : r ≠ .error .stepOverflow) : u.Placed := by
  cases h with
  | unset => exact ht
  | lost => exact ⟨ht.opened, by simp⟩
  | stuck => exact ht
  | refused => exact ht
  | ended => exact ht
  | landed _ he =>
    obtain ⟨k, _, hc, hn, hd⟩ := ends_scene_iff.mp he
    refine ⟨hc.opened ht.opened, ?_⟩
    rintro id ⟨⟩
    exact ⟨_, Place.node_id hn, hd⟩
  | broke _ he =>
    obtain ⟨k, _, hc⟩ := he.chain
    exact ⟨hc.opened ht.opened, by simp [arrive]⟩
  | exceeded _ he =>
    obtain ⟨k, _, hc⟩ := he.chain
    exact ⟨hc.opened ht.opened, by simp [arrive]⟩
  | overflowed => exact absurd rfl hr

end Traversal

namespace Session

def Placed (s : Session) : Prop := ∀ t, s = .opened t → t.Placed

theorem setPlay_placed {s : Session} (hs : s.Placed) {play : Playthrough}
    (hp : play.project = s.play.project) : (s.setPlay play).Placed := by
  cases s with
  | closed => rintro u ⟨⟩
  | opened t =>
    rintro u ⟨⟩
    have ht := hs t rfl
    refine ⟨?_, ht.resting⟩
    change t.experience ∈ play.project.experiences
    rw [hp]
    exact ht.opened

theorem Called.placed {s u : Session} {c : Command} (h : Called s c u) (hs : s.Placed)
    (hr : s.Returns c) : u.Placed := by
  cases h with
  | asked => exact hs
  | closed => rintro u ⟨⟩
  | opened hn => rintro u ⟨⟩; exact Traversal.new_placed hn
  | started name ho => rintro u ⟨⟩; exact Traversal.start_placed (hs _ ho) name
  | entered experience name ho =>
    rintro u ⟨⟩
    exact Traversal.enter_placed (hs _ ho) experience name
  | @advanced t choice ho =>
    rintro u ⟨⟩
    exact (t.advance_advanced choice).placed (hs t ho) (hr t choice ho rfl)
  | wrote => exact setPlay_placed hs rfl
  | drew => exact setPlay_placed hs rfl

end Session

theorem Reachable.placed {p : Project} {s : Session} (h : Reachable p s) : s.Placed := by
  induction h with
  | fresh => rintro t ⟨⟩
  | call _ hr ih => exact (Session.perform_called _ _).placed ih hr

namespace Traversal

variable {t : Traversal}

theorem Placed.current_found_iff (ht : t.Placed) :
    t.currentNode?.isSome ↔ t.current.isSome := by
  cases hc : t.current with
  | none => simp [currentNode?, hc]
  | some id =>
    obtain ⟨node, hn, _⟩ := ht.resting id hc
    simp [currentNode?, hc, node?, hn]

theorem Placed.start_sets_cursor (ht : t.Placed) (name : String) :
    (t.start name).1 ≠ .error .noCurrentNode := by
  cases hs : t.experience.start? name with
  | none => simp [start_missing hs]
  | some node => simp [start_found ht.opened hs]

theorem enter_sets_cursor (t : Traversal) (experience name : String) :
    (t.enter experience name).1 ≠ .error .noCurrentNode := by
  rcases t.enter_cases experience name with ⟨fault, he, h⟩ | ⟨e, _, _, h⟩ | ⟨e, node, _, _, h⟩
  · have hf := Project.experience_error he
    simp [h, hf]
  · simp [h]
  · simp [h]

theorem Placed.advance_only_stuck_on_ending (ht : t.Placed) {choice : Option UInt64} {kind : Kind}
    (h : (t.advance choice).1 = .error (.cannotAdvance kind)) : kind = .ending := by
  have ha := t.advance_advanced choice
  generalize (t.advance choice).2 = u at ha
  rw [h] at ha
  cases ha with
  | stuck hc hn hb =>
    obtain ⟨node, hn', hd⟩ := ht.resting _ hc
    cases hn.symm.trans hn'
    exact absurd hd (Node.not_displayable hb)
  | ended => rfl

theorem Placed.advance_broken_leaves (ht : t.Placed) {choice : Option UInt64} {id : NodeId}
    (h : (t.advance choice).1 = .error (.brokenChain id)) : ∃ next, t.Leaves choice id next := by
  have ha := t.advance_advanced choice
  generalize (t.advance choice).2 = u at ha
  rw [h] at ha
  cases ha with
  | lost hc hn =>
    obtain ⟨node, hn', _⟩ := ht.resting _ hc
    cases hn.symm.trans hn'
  | broke hl => exact ⟨_, hl⟩

end Traversal

/-- Whatever calls are made, the open experience is one of the project's and the cursor is unset or
on one of its scenes. So an advance always finds the node it leaves and refuses to leave only an
end node, no start is answered without a cursor, and the current node is there whenever the cursor
is set. -/
theorem cursor_rests_on_scene (p : Project) (source : RandomSource) (commands : List Command)
    (hl : p.stepLimit.toNat < 2 ^ 64 - 1) (t : Traversal)
    (ht : ((Session.closed (.new p source)).run commands).2 = .opened t) :
    t.experience ∈ p.experiences ∧
    (∀ id, t.current = some id →
      ∃ node, t.experience.node? id = some node ∧ node.isDisplayable) ∧
    (∀ choice id, (t.advance choice).1 = .error (.brokenChain id) →
      ∃ next, t.Leaves choice id next) ∧
    (∀ choice kind, (t.advance choice).1 = .error (.cannotAdvance kind) → kind = .ending) ∧
    (∀ name, (t.start name).1 ≠ .error .noCurrentNode) ∧
    (∀ experience name, (t.enter experience name).1 ≠ .error .noCurrentNode) ∧
    (t.currentNode?.isSome ↔ t.current.isSome) := by
  have hr : Reachable p (.opened t) :=
    ht ▸ Reachable.run (fun h => h.returns hl) (.fresh source) commands
  have hp : t.play.project = p := hr.project
  have hplaced : t.Placed := hr.placed t rfl
  refine ⟨hp ▸ hplaced.opened, hplaced.resting, ?_, ?_, ?_, ?_, hplaced.current_found_iff⟩
  · intro choice id h
    exact hplaced.advance_broken_leaves h
  · intro choice kind h
    exact hplaced.advance_only_stuck_on_ending h
  · intro name
    exact hplaced.start_sets_cursor name
  · intro experience name
    exact t.enter_sets_cursor experience name

/-- The second entrance fails, after the experience has been switched and switched back. -/
def hallVisit : List Command :=
  [.openExperience "Cellar", .enter "Hall" "Gate", .enter "Cellar" "Gate", .advance none]

theorem hall_cursor_rests_on_choice :
    inn.stepLimit.toNat < 2 ^ 64 - 1 ∧
    ∃ t, ((Session.closed (.new inn (.cycle #[0]))).run hallVisit).2 = .opened t ∧
      t.current = some 7 ∧ ∃ node, t.experience.node? 7 = some node ∧ node.isDisplayable := by
  have h := cursor_rests_on_scene inn (.cycle #[0]) hallVisit (by decide)
  exact ⟨by decide, _, rfl, rfl, (h _ rfl).2.1 7 rfl⟩

end Storyline

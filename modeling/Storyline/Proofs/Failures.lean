import Storyline.Proofs.Cursor
import Storyline.Proofs.Edges

/-! # Failures

A call that fails is either refused, and then nothing has changed, or it is an advance whose walk
came to nothing. Such an advance has lost the cursor, but what the transit nodes on its way have
done stays done.
-/
namespace Storyline

/-- The call is refused before anything is done. -/
inductive Fault.Refuses : Fault → Prop where
  | unknownStart (name experience) : Refuses (.unknownStart name experience)
  | unknownExperience (name) : Refuses (.unknownExperience name)
  | noCurrentNode : Refuses .noCurrentNode
  | invalidChoice (index available) : Refuses (.invalidChoice index available)
  | cannotAdvance (kind) : Refuses (.cannotAdvance kind)

/-- The walk of an advance came to nothing. -/
inductive Fault.Strands : Fault → Prop where
  | brokenChain (origin) : Strands (.brokenChain origin)
  | stepLimit (limit) : Strands (.stepLimit limit)

def Transit.assignments : Transit → List Assignment
  | .update assignments _ => assignments
  | _ => []

/-- The transit nodes that a walk passes between two places, in order. -/
inductive Passage (p : Project) : List Transit → Place → Place → Prop where
  | nil (c) : Passage p [] c c
  | cons {work works a b c} : a.Meets work → Effect p a work b → Passage p works b c →
      Passage p (work :: works) a c

section Passage

variable {p : Project} {a b c : Place} {work : Transit} {works : List Transit}

theorem Chain.passage {k : Nat} (h : Chain p k a c) :
    ∃ works, works.length = k ∧ Passage p works a c := by
  induction h with
  | nil c => exact ⟨[], rfl, .nil c⟩
  | cons hs _ ih =>
    obtain ⟨work, hm, he⟩ := hs
    obtain ⟨works, hlen, hw⟩ := ih
    exact ⟨work :: works, by simp [hlen], .cons hm he hw⟩

theorem Effect.written (h : Effect p a work b) :
    b.store = work.assignments.foldl Variables.attempt a.store := by
  cases h with
  | update hw => exact hw.unique (writes_attempt _ _)
  | _ => rfl

theorem Passage.written (h : Passage p works a c) :
    c.store = (works.flatMap Transit.assignments).foldl Variables.attempt a.store := by
  induction h with
  | nil => rfl
  | cons _ he _ ih =>
    rw [List.flatMap_cons, List.foldl_append, ← he.written]
    exact ih

theorem Passage.switched (h : Passage p works a c) :
    c.experience = a.experience ∨ ∃ work, works.getLast? = some work ∧ c.Teleported p work := by
  induction h with
  | nil => exact Or.inl rfl
  | @cons work works a b c hm he hw ih =>
    rcases he.edge with ⟨hx, _⟩ | ht
    · rcases ih with hc | ⟨last, hlast, hc⟩
      · exact Or.inl (hc.trans hx)
      · refine Or.inr ⟨last, ?_, hc⟩
        rw [List.getLast?_cons, hlast]
        rfl
    · cases hw with
      | nil => exact Or.inr ⟨work, rfl, ht⟩
      | cons hm' => exact absurd hm' (ht.stops _)

theorem Place.Teleported.missing (h : c.Teleported p work) (hn : c.node? = none) :
    ∃ name start, work = .teleport name start ∧ p.experience name = .ok c.experience ∧
      start ∉ c.experience.starts := by
  obtain ⟨name, start, e, rfl, he, rfl, hnext⟩ := h
  refine ⟨name, start, rfl, he, ?_⟩
  intro hs
  obtain ⟨first, hf⟩ := Option.isSome_iff_exists.mp (Experience.start_found_iff.mpr hs)
  have hr := Project.start_resolves (Project.experience_mem he) hf
  simp [Place.node?, hnext, hf, hr] at hn

end Passage

namespace Traversal

/-- The advance from `t` under this choice came to nothing behind the transit nodes `works`, with
this fault, and left `u`. -/
structure Stranded (t : Traversal) (choice : Option UInt64) (works : List Transit) (fault : Fault)
    (u : Traversal) : Prop where
  /-- Those nodes are all that the walk has passed: behind them there is no node, or one more
  transit node when the limit is used up. -/
  passed : ∃ origin next c, t.Leaves choice origin next ∧
    Passage t.play.project works (t.place next) c ∧ u = t.arrive c none ∧
    (fault = .brokenChain origin ∧ c.node? = none ∨
      fault = .stepLimit t.play.project.stepLimit ∧
        works.length = t.play.project.stepLimit.toNat ∧ ∃ work, c.Meets work)
  unset : u.current = none
  written : u.play.store = (works.flatMap Transit.assignments).foldl Variables.attempt t.play.store
  switched : u.experience ≠ t.experience → ∃ name start,
    works.getLast? = some (.teleport name start) ∧
      t.play.project.experience name = .ok u.experience ∧ start ∉ u.experience.starts

section Failed

variable {t u : Traversal} {choice : Option UInt64}

theorem Placed.start_failed (ht : t.Placed) {name : String} {fault : Fault}
    (h : (t.start name).1 = .error fault) : (t.start name).2 = t := by
  cases hs : t.experience.start? name with
  | none => rw [start_missing hs]
  | some node =>
    rw [start_found ht.opened hs] at h
    cases h

theorem enter_failed {experience name : String} {fault : Fault}
    (h : (t.enter experience name).1 = .error fault) : (t.enter experience name).2 = t := by
  rcases t.enter_cases experience name with ⟨_, _, he⟩ | ⟨_, _, _, he⟩ | ⟨_, _, _, _, he⟩
  · rw [he]
  · rw [he]
  · rw [he] at h
    cases h

theorem Advanced.refused_unchanged {fault : Fault} (h : Advanced t choice (.error fault) u)
    (hf : fault.Refuses) : u = t := by
  cases h with
  | unset | stuck | refused | ended => rfl
  | lost | broke | exceeded | overflowed => cases hf

theorem advance_refused {fault : Fault} (h : (t.advance choice).1 = .error fault)
    (hf : fault.Refuses) : (t.advance choice).2 = t := by
  have ha := t.advance_advanced choice
  rw [h] at ha
  exact ha.refused_unchanged hf

theorem Advanced.stranded {fault : Fault} (h : Advanced t choice (.error fault) u)
    (hf : fault.Strands) (ht : t.Placed) : ∃ works, Stranded t choice works fault u := by
  cases h with
  | unset | stuck | refused | ended | overflowed => cases hf
  | lost hc hn =>
    obtain ⟨node, hn', _⟩ := ht.resting _ hc
    cases hn.symm.trans hn'
  | @broke origin next c hl he =>
    obtain ⟨k, _, hc, hn⟩ := ends_nowhere_iff.mp he
    obtain ⟨works, _, hw⟩ := hc.passage
    refine ⟨works, ⟨origin, next, c, hl, hw, rfl, Or.inl ⟨rfl, hn⟩⟩, rfl, hw.written, ?_⟩
    intro hx
    rcases hw.switched with hsame | ⟨work, hlast, hteleported⟩
    · exact absurd hsame hx
    · obtain ⟨name, start, rfl, hname, hstart⟩ := hteleported.missing hn
      exact ⟨name, start, hlast, hname, hstart⟩
  | @exceeded origin next c hl he _ =>
    obtain ⟨hc, work, hm⟩ := ends_exhausted_iff.mp he
    obtain ⟨works, hlen, hw⟩ := hc.passage
    refine ⟨works, ⟨origin, next, c, hl, hw, rfl, Or.inr ⟨rfl, hlen, work, hm⟩⟩, rfl, hw.written,
      ?_⟩
    intro hx
    rcases hw.switched with hsame | ⟨_, _, hteleported⟩
    · exact absurd hsame hx
    · exact absurd hm (hteleported.stops work)

theorem advance_unset (h : t.current = none) (choice : Option UInt64) :
    t.advance choice = (.error .noCurrentNode, t) :=
  (Advanced.unset h).eq

theorem advance_finished (h : t.isFinished) (choice : Option UInt64) :
    t.advance choice = (.error (.cannotAdvance .ending), t) := by
  obtain ⟨node, hn, hb⟩ := (Option.any_eq_true _ _).mp h
  obtain ⟨id, hc, hf⟩ := Option.bind_eq_some_iff.mp hn
  exact (Advanced.ended hc hf (by simpa using hb)).eq

end Failed

end Traversal

inductive Command.Places : Command → Prop where
  | start (name) : Places (.start name)
  | enter (experience start) : Places (.enter experience start)

namespace Session

def Misses (c : Command) (reply : Reply) : Prop := c.Places → ∀ n, reply ≠ .node n

/-- No experience is open, or there is no cursor in it. -/
structure Unset (s : Session) : Prop where
  placed : s.Placed
  current : ∀ t, s = .opened t → t.current = none

theorem Unset.current_setPlay {s : Session} (h : s.Unset) {play : Playthrough} {t : Traversal}
    (ht : s.setPlay play = .opened t) : t.current = none := by
  cases s with
  | closed => cases ht
  | opened u =>
    cases ht
    exact h.current u rfl

theorem Unset.perform {s : Session} (h : s.Unset) {c : Command} (hc : Misses c (s.perform c).1) :
    (s.perform c).2.Unset := by
  have hcall := s.perform_called c
  have hreturns : s.Returns c := by
    rintro t choice rfl _
    rw [Traversal.advance_unset (h.current t rfl)]
    simp
  refine ⟨hcall.placed h.placed hreturns, ?_⟩
  intro v hv
  generalize (s.perform c).2 = w at hcall hv
  cases hcall with
  | asked => exact h.current v hv
  | closed => cases hv
  | opened hn =>
    obtain ⟨e, _, rfl⟩ := Traversal.new_ok_iff.mp hn
    cases hv
    rfl
  | @started t name hs =>
    subst hs
    cases hv
    cases hr : (t.start name).1 with
    | ok n => exact absurd (congrArg (Reply.ofExcept (.node ∘ some)) hr) (hc (.start name) n)
    | error fault =>
      rw [(h.placed t rfl).start_failed hr]
      exact h.current t rfl
  | @entered t experience name hs =>
    subst hs
    cases hv
    cases hr : (t.enter experience name).1 with
    | ok n =>
      exact absurd (congrArg (Reply.ofExcept (.node ∘ some)) hr) (hc (.enter experience name) n)
    | error fault =>
      rw [Traversal.enter_failed hr]
      exact h.current t rfl
  | @advanced t choice hs =>
    subst hs
    cases hv
    have hnone := h.current t rfl
    rw [Traversal.advance_unset hnone]
    exact hnone
  | wrote => exact h.current_setPlay hv
  | drew => exact h.current_setPlay hv

theorem run_keeps {P : Session → Prop} {Q : Command → Reply → Prop}
    (hstep : ∀ {s c}, P s → Q c (s.perform c).1 → P (s.perform c).2) {s : Session} (h : P s)
    {commands : List Command}
    (hc : ∀ c reply, (c, reply) ∈ commands.zip (s.run commands).1 → Q c reply) :
    P (s.run commands).2 := by
  induction commands generalizing s with
  | nil => exact h
  | cons c rest ih =>
    apply ih (hstep h (hc c _ List.mem_cons_self))
    intro c reply hmem
    exact hc c reply (List.mem_cons_of_mem _ hmem)

theorem run_finished {t : Traversal} (h : t.isFinished) (choices : List (Option UInt64)) :
    (Session.opened t).run (choices.map .advance) =
      (choices.map fun _ => .fault (.cannotAdvance .ending), .opened t) := by
  induction choices with
  | nil => rfl
  | cons choice rest ih =>
    have hc : (Session.opened t).perform (.advance choice) =
        (.fault (.cannotAdvance .ending), .opened t) := by
      simp only [Session.perform, move, Traversal.advance_finished h, Reply.ofExcept]
    simp only [List.map_cons, run, hc, ih]

end Session

/-- What is left after a failure, from any reachable state. A start or an entrance that fails, and
an advance that is refused, have changed nothing. An advance whose walk came to nothing has lost the
cursor, keeps every write of the transit nodes that it passed, and has switched the experience only
if the last of them is a teleport to an experience without the start node that it names; then every
advance fails for want of a cursor and changes nothing, until a start or an entrance succeeds. On an
end node no number of advances changes anything. -/
theorem failures_leave_documented_state (p : Project) (t : Traversal)
    (ht : Reachable p (.opened t)) :
    (∀ name fault, (t.start name).1 = .error fault → (t.start name).2 = t) ∧
    (∀ experience name fault, (t.enter experience name).1 = .error fault →
      (t.enter experience name).2 = t) ∧
    (∀ choice fault, (t.advance choice).1 = .error fault → fault.Refuses →
      (t.advance choice).2 = t) ∧
    (∀ choice fault u, t.advance choice = (.error fault, u) → fault.Strands →
      (∃ works, t.Stranded choice works fault u) ∧
      ∀ commands v,
        (∀ c reply, (c, reply) ∈ commands.zip ((Session.opened u).run commands).1 →
          Session.Misses c reply) →
        ((Session.opened u).run commands).2 = .opened v →
        v.current = none ∧ ∀ later, v.advance later = (.error .noCurrentNode, v)) ∧
    (t.isFinished → ∀ choices : List (Option UInt64),
      (Session.opened t).run (choices.map .advance) =
        (choices.map fun _ => .fault (.cannotAdvance .ending), .opened t)) := by
  have hplaced : t.Placed := ht.placed t rfl
  refine ⟨?_, ?_, ?_, ?_, Session.run_finished⟩
  · intro name fault h
    exact hplaced.start_failed h
  · intro experience name fault h
    exact Traversal.enter_failed h
  · intro choice fault h hf
    exact Traversal.advance_refused h hf
  · intro choice fault u h hf
    have ha := Traversal.advance_iff.mp h
    obtain ⟨works, hs⟩ := ha.stranded hf hplaced
    have hreturned : (.error fault : Except Fault Node) ≠ .error .stepOverflow := by
      rintro ⟨⟩
      cases hf
    have hu : (Session.opened u).Unset := by
      constructor
      · rintro _ ⟨⟩
        exact ha.placed hplaced hreturned
      · rintro _ ⟨⟩
        exact hs.unset
    refine ⟨⟨works, hs⟩, ?_⟩
    intro commands v hmiss hv
    have hlater := Session.run_keeps (fun hs hc => hs.perform hc) hu hmiss
    have hnone := hlater.current v hv
    exact ⟨hnone, Traversal.advance_unset hnone⟩

def stable : Experience :=
  ⟨"Stable", [⟨0, [], .scene (.start "Door" (some 1))⟩,
    ⟨1, [], .transit (.update [⟨"gold", "-", "2"⟩] (some 2))⟩,
    ⟨2, [], .transit (.teleport "Hall" "Window")⟩]⟩

def mews : Project where
  document := ⟨[stable, hall], [⟨"gold", "7"⟩], []⟩
  experiences_distinct := by decide
  nodes_distinct := by decide
  variables_distinct := by decide
  stepLimit := 2

def atDoor : Traversal := ⟨.new mews (.cycle #[0]), stable, some 0⟩

def afterWindow : List Command :=
  [.start "Window", .advance none, .enter "Hall" "Window", .set "gold" "1"]

/-- The gold is paid before the window is missed, and no cursor comes back by itself. -/
theorem window_leaves_documented_state :
    Reachable mews (.opened atDoor) ∧ (Fault.brokenChain 0).Strands ∧
    ∃ u works v, atDoor.advance none = (.error (.brokenChain 0), u) ∧
      atDoor.Stranded none works (.brokenChain 0) u ∧
      u.experience.name = "Hall" ∧ u.play.store.values = ["5"] ∧
      (∀ c reply, (c, reply) ∈ afterWindow.zip ((Session.opened u).run afterWindow).1 →
        Session.Misses c reply) ∧
      ((Session.opened u).run afterWindow).2 = .opened v ∧ v.play.store.values = ["1"] ∧
      v.current = none ∧ v.advance none = (.error .noCurrentNode, v) := by
  have hl : mews.stepLimit.toNat < 2 ^ 64 - 1 := by decide
  have hr : Reachable mews (.opened atDoor) := Reachable.run (fun h => h.returns hl)
    (.fresh (.cycle #[0])) [.openExperience "Stable", .start "Door"]
  have hstrands : (Fault.brokenChain 0).Strands := .brokenChain 0
  have hfault : (atDoor.advance none).1 = .error (.brokenChain 0) := by decide +kernel
  have hadvance : atDoor.advance none = (.error (.brokenChain 0), (atDoor.advance none).2) := by
    rw [← hfault]
  have h := (failures_leave_documented_state mews atDoor hr).2.2.2.1 none _ _ hadvance hstrands
  obtain ⟨⟨works, hworks⟩, hlater⟩ := h
  have hmiss : ∀ c reply, (c, reply) ∈
      afterWindow.zip ((Session.opened (atDoor.advance none).2).run afterWindow).1 →
      Session.Misses c reply := by
    have hreplies : (((Session.opened (atDoor.advance none).2).run afterWindow).1.all fun
        | .node _ => false
        | _ => true) = true := by
      decide +kernel
    rintro c reply hmem _ n rfl
    cases List.all_eq_true.mp hreplies _ (List.of_mem_zip hmem).2
  obtain ⟨hnone, hnext⟩ := hlater afterWindow _ hmiss rfl
  exact ⟨hr, hstrands, _, works, _, hadvance, hworks, by decide +kernel, by decide +kernel, hmiss,
    rfl, by decide +kernel, hnone, hnext none⟩

end Storyline

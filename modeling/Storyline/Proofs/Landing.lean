import Storyline.Proofs.Failures
import Storyline.Proofs.ShownNode

/-! # What the host is handed

A start, an entrance and an advance answer with the node that they bring the cursor to. The host
sees that node under the cursor, with the same texts, until a variable is written or the cursor
moves: calls that fail without moving it, and calls that only ask, make no difference.
-/
namespace Storyline

theorem Node.kind_ending_iff {node : Node} : node.kind = .ending ↔ node.body = .scene .ending := by
  unfold Node.kind
  cases node.body with
  | scene s => cases s <;> simp [Scene.kind]
  | transit work => cases work <;> simp [Transit.kind]

namespace Traversal

structure RestsOn (t : Traversal) (node : Node) : Prop where
  current : t.current = some node.id
  found : t.experience.node? node.id = some node
  displayable : node.isDisplayable

/-- The node `n` is what the host sees under the cursor. -/
structure Shows (t : Traversal) (n : Node) : Prop where
  cursor : t.current = some n.id
  current : t.currentNode? = some n
  lookup : t.node? n.id = some n
  displayable : n.isDisplayable
  finished : t.isFinished ↔ n.kind = .ending

/-- A start, an entrance or an advance answers with the node `n` and leaves `u`. -/
inductive Hands (t : Traversal) (n : Node) (u : Traversal) : Prop where
  | start {name} : t.start name = (.ok n, u) → Hands t n u
  | enter {experience name} : t.enter experience name = (.ok n, u) → Hands t n u
  | advance {choice} : t.advance choice = (.ok n, u) → Hands t n u

variable {t u : Traversal} {n node : Node}

theorem RestsOn.shows (h : t.RestsOn node) : t.Shows (node.fill t.play.store) where
  cursor := h.current
  current := by simp [currentNode?, node?, h.current, h.found]
  lookup := by simp [node?, h.found]
  displayable := by simpa using h.displayable
  finished := by simp [isFinished, h.current, h.found, Node.kind_ending_iff]

theorem rests_on_start {e : Experience} (he : e ∈ t.play.project.experiences) {name : String}
    (hs : e.start? name = some node) :
    RestsOn { t with experience := e, current := some node.id } node := by
  obtain ⟨link, hb⟩ := Node.start_displayable (Experience.start_mem hs).2
  exact ⟨rfl, Project.start_resolves he hs, Node.displayable_iff.mpr ⟨_, hb⟩⟩

theorem start_rests (ht : t.Placed) {name : String} (h : t.start name = (.ok n, u)) :
    ∃ node, u.RestsOn node ∧ n = node.fill u.play.store := by
  cases hs : t.experience.start? name with
  | none =>
    rw [start_missing hs] at h
    cases h
  | some first =>
    rw [start_found ht.opened hs] at h
    cases h
    exact ⟨first, rests_on_start ht.opened hs, rfl⟩

theorem enter_rests {experience name : String} (h : t.enter experience name = (.ok n, u)) :
    ∃ node, u.RestsOn node ∧ n = node.fill u.play.store := by
  rcases t.enter_cases experience name with ⟨_, _, hf⟩ | ⟨_, _, _, hf⟩ | ⟨e, first, he, hs, hf⟩
  · cases hf.symm.trans h
  · cases hf.symm.trans h
  · cases hf.symm.trans h
    exact ⟨first, rests_on_start (Project.experience_mem he) hs, rfl⟩

theorem Advanced.rests {choice : Option UInt64} (h : Advanced t choice (.ok n) u) :
    ∃ node, u.RestsOn node ∧ n = node.fill u.play.store := by
  cases h with
  | landed _ he =>
    obtain ⟨_, _, _, hn, hd⟩ := ends_scene_iff.mp he
    exact ⟨_, ⟨rfl, Place.node_id hn, hd⟩, rfl⟩

theorem Hands.rests (h : t.Hands n u) (ht : t.Placed) :
    ∃ node, u.RestsOn node ∧ n = node.fill u.play.store := by
  cases h with
  | start h => exact start_rests ht h
  | enter h => exact enter_rests h
  | advance h => exact (advance_iff.mp h).rests

theorem Hands.placed (h : t.Hands n u) (ht : t.Placed) : u.Placed := by
  cases h with
  | @start name h =>
    have hp := start_placed ht name
    rwa [h] at hp
  | @enter experience name h =>
    have hp := enter_placed ht experience name
    rwa [h] at hp
  | advance h => exact (advance_iff.mp h).placed ht (by simp)

end Traversal

/-- The call only asks, or it draws a route: it can reach neither a variable nor the cursor. -/
def Command.asks : Command → Bool
  | .openExperience _ | .start _ | .enter .. | .advance _ | .set .. | .reset | .assign _ => false
  | _ => true

/-- The call, by its answer, has written no variable and moved no cursor. -/
inductive Command.Idle : Command → Reply → Prop where
  | start (name fault) : Idle (.start name) (.fault fault)
  | enter (experience name fault) : Idle (.enter experience name) (.fault fault)
  | refused (choice index available) :
      Idle (.advance choice) (.fault (.invalidChoice index available))
  | stuck (choice kind) : Idle (.advance choice) (.fault (.cannotAdvance kind))
  | set (name value fault) : Idle (.set name value) (.fault fault)
  | assign (a fault) : Idle (.assign a) (.fault fault)
  | asked {c} (reply) : c.asks → Idle c reply

namespace Session

theorem ofExcept_fault {r : Except Fault α} {reply : α → Reply} {fault : Fault}
    (hreply : ∀ a, reply a ≠ .fault fault) (h : Reply.ofExcept reply r = .fault fault) :
    r = .error fault := by
  cases r with
  | ok a => exact absurd h (hreply a)
  | error f =>
    cases h
    rfl

theorem write_failed {s : Session} {result : Except Fault Variables} {fault : Fault}
    (h : (s.write result).1 = .fault fault) : (s.write result).2 = s := by
  cases result with
  | ok store => cases h
  | error f => rfl

theorem perform_idle {t : Traversal} (ht : t.Placed) {c : Command}
    (hc : c.Idle ((Session.opened t).perform c).1) :
    ∃ source, ((Session.opened t).perform c).2 =
      .opened { t with play := { t.play with source } } := by
  generalize hr : ((Session.opened t).perform c).1 = reply at hc
  cases hc with
  | start name fault =>
    have hf := ht.start_failed (ofExcept_fault (by simp) hr)
    exact ⟨t.play.source, congrArg Session.opened hf⟩
  | enter experience name fault =>
    have hf := Traversal.enter_failed (ofExcept_fault (by simp) hr)
    exact ⟨t.play.source, congrArg Session.opened hf⟩
  | refused choice index available =>
    have hf :=
      Traversal.advance_refused (ofExcept_fault (by simp) hr) (.invalidChoice index available)
    exact ⟨t.play.source, congrArg Session.opened hf⟩
  | stuck choice kind =>
    have hf := Traversal.advance_refused (ofExcept_fault (by simp) hr) (.cannotAdvance kind)
    exact ⟨t.play.source, congrArg Session.opened hf⟩
  | set name value fault => exact ⟨t.play.source, write_failed hr⟩
  | assign a fault => exact ⟨t.play.source, write_failed hr⟩
  | asked reply hasks =>
    cases c with
    | openExperience | start | enter | advance | set | reset | assign => cases hasks
    | draw routes => exact ⟨_, rfl⟩
    | _ => exact ⟨t.play.source, rfl⟩

def Shows (s : Session) (n : Node) : Prop := ∃ t, s = .opened t ∧ t.Placed ∧ t.Shows n

/-- What is shown depends on the experience, the variables and the cursor, and not on the source. -/
theorem Shows.perform {n : Node} {s : Session} {c : Command} (h : s.Shows n)
    (hc : c.Idle (s.perform c).1) : (s.perform c).2.Shows n := by
  obtain ⟨t, rfl, ht, hn⟩ := h
  obtain ⟨source, hu⟩ := perform_idle ht hc
  refine ⟨_, hu, ?_, ?_⟩
  · exact ⟨ht.opened, ht.resting⟩
  · exact ⟨hn.cursor, hn.current, hn.lookup, hn.displayable, hn.finished⟩

end Session

/-- Whenever a start, an entrance or an advance answers with a node, the host then sees exactly that
node: the cursor has its id, it is the current node and the one found by its id, texts included, and
the traversal is finished exactly if it is an end node. This stays so over any calls that write no
variable and move no cursor. -/
theorem handed_node_is_shown (p : Project) (t : Traversal) (ht : Reachable p (.opened t)) (n : Node)
    (u : Traversal) (h : t.Hands n u) :
    u.Shows n ∧
    ∀ commands, (∀ c reply, (c, reply) ∈ commands.zip ((Session.opened u).run commands).1 →
        c.Idle reply) →
      ∃ v, ((Session.opened u).run commands).2 = .opened v ∧ v.Shows n := by
  have hplaced : t.Placed := ht.placed t rfl
  obtain ⟨node, hrests, rfl⟩ := h.rests hplaced
  constructor
  · exact hrests.shows
  · intro commands hidle
    have hkept : (Session.opened u).Shows _ := ⟨u, rfl, h.placed hplaced, hrests.shows⟩
    obtain ⟨v, hv, _, hshown⟩ :=
      Session.run_keeps (fun hs hc => Session.Shows.perform hs hc) hkept hidle
    exact ⟨v, hv, hshown⟩

def counter : Experience :=
  ⟨"Counter", [⟨0, [], .scene (.start "Bell" (some 1))⟩,
    ⟨1, [], .transit (.update [⟨"gold", "+", "5"⟩] (some 2))⟩,
    ⟨2, [⟨"sign", "gold only"⟩], .scene (.choice [⟨"Pay gold", none⟩])⟩]⟩

def shop : Project where
  document := ⟨[counter], [⟨"gold", "7"⟩], [⟨"price", "gold coins"⟩, ⟨"price", "none"⟩]⟩
  experiences_distinct := by decide
  nodes_distinct := by decide
  variables_distinct := by decide
  stepLimit := 1

def atBell : Traversal := ⟨.new shop (.cycle #[0]), counter, some 0⟩

def haggling : List Command :=
  [.advance none, .start "Door", .enter "Street" "Bell", .set "silver" "1",
    .assign ⟨"gold", "?", "1"⟩, .draw [⟨"1", 0⟩], .current]

/-- The price is that after the addition, and stays while nothing is written. -/
theorem counter_is_shown :
    Reachable shop (.opened atBell) ∧
    ∃ u v, atBell.Hands ⟨2, [⟨"sign", "12 only"⟩], .scene (.choice [⟨"Pay 12", none⟩])⟩ u ∧
      u.Shows ⟨2, [⟨"sign", "12 only"⟩], .scene (.choice [⟨"Pay 12", none⟩])⟩ ∧
      (∀ c reply, (c, reply) ∈ haggling.zip ((Session.opened u).run haggling).1 → c.Idle reply) ∧
      ((Session.opened u).run haggling).2 = .opened v ∧
      v.Shows ⟨2, [⟨"sign", "12 only"⟩], .scene (.choice [⟨"Pay 12", none⟩])⟩ := by
  have hl : shop.stepLimit.toNat < 2 ^ 64 - 1 := by decide
  have hr : Reachable shop (.opened atBell) := Reachable.run (fun h => h.returns hl)
    (.fresh (.cycle #[0])) [.openExperience "Counter", .start "Bell"]
  have hn : (atBell.advance none).1 =
      .ok ⟨2, [⟨"sign", "12 only"⟩], .scene (.choice [⟨"Pay 12", none⟩])⟩ := by
    decide +kernel
  have hadvance : atBell.advance none =
      (.ok ⟨2, [⟨"sign", "12 only"⟩], .scene (.choice [⟨"Pay 12", none⟩])⟩,
        (atBell.advance none).2) := by
    rw [← hn]
  have hands : atBell.Hands _ (atBell.advance none).2 := .advance hadvance
  obtain ⟨hshown, hstays⟩ := handed_node_is_shown shop atBell hr _ _ hands
  have hidle : ∀ c reply, (c, reply) ∈
      haggling.zip ((Session.opened (atBell.advance none).2).run haggling).1 → c.Idle reply := by
    intro c reply hmem
    simp only [haggling, Session.run, List.zip_cons_cons, List.zip_nil_left, List.mem_cons,
      Prod.mk.injEq, List.not_mem_nil, or_false] at hmem
    rcases hmem with ⟨rfl, h⟩ | ⟨rfl, h⟩ | ⟨rfl, h⟩ | ⟨rfl, h⟩ | ⟨rfl, h⟩ | ⟨rfl, h⟩ | ⟨rfl, h⟩ <;>
      rw [h]
    · exact .refused none none 1
    · exact .start "Door" (.unknownStart "Door" "Counter")
    · exact .enter "Street" "Bell" (.unknownExperience "Street")
    · exact .set "silver" "1" (.unknownVariable "silver")
    · exact .assign ⟨"gold", "?", "1"⟩ (.invalidOperator "?" .notAssignment)
    · exact .asked _ rfl
    · exact .asked _ rfl
  obtain ⟨v, hv, hstill⟩ := hstays haggling hidle
  exact ⟨hr, _, v, hands, hshown, hidle, hv, hstill⟩

end Storyline

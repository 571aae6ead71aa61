import Storyline.Proofs.Cursor

/-! # The step limit

The limit decides when an advance gives up, and nothing else. An advance that stays within its limit
answers and leaves the same under any greater one, so a run without an exceeded limit is the same
run with a greater limit.
-/
namespace Storyline

def Project.withLimit (p : Project) (limit : UInt64) : Project := { p with stepLimit := limit }

def Playthrough.withLimit (p : Playthrough) (limit : UInt64) : Playthrough :=
  { p with project := p.project.withLimit limit }

def Traversal.withLimit (t : Traversal) (limit : UInt64) : Traversal :=
  { t with play := t.play.withLimit limit }

def Session.withLimit (s : Session) (limit : UInt64) : Session := s.setPlay (s.play.withLimit limit)

theorem Project.load_withLimit (document : Document) (low high : UInt64) :
    load document high = (load document low).map (·.withLimit high) := by
  unfold load
  split <;> rfl

section Walk

variable {p : Project} {a b c : Place}

theorem Effect.withLimit {work : Transit} (h : Effect p a work b) (limit : UInt64) :
    Effect (p.withLimit limit) a work b := by
  cases h with
  | update hw => exact .update hw
  | conditional routes fallback => exact .conditional routes fallback
  | drawn hd => exact .drawn hd
  | undrawn hd => exact .undrawn hd
  | teleport he => exact .teleport he
  | stranded he => exact .stranded he

theorem Chain.withLimit {k : Nat} (h : Chain p k a c) (limit : UInt64) :
    Chain (p.withLimit limit) k a c := by
  induction h with
  | nil => exact .nil _
  | cons hs _ ih =>
    obtain ⟨work, hm, he⟩ := hs
    exact .cons ⟨work, hm, he.withLimit limit⟩ ih

namespace Traversal

theorem Ends.raise {low high : Nat} {r : Arrival} (h : Ends p low a r c) (hr : r ≠ .exhausted)
    (hle : low ≤ high) (limit : UInt64) : Ends (p.withLimit limit) high a r c := by
  cases h with
  | scene hc hk hn hd => exact .scene (hc.withLimit limit) (Nat.le_trans hk hle) hn hd
  | nowhere hc hk hn => exact .nowhere (hc.withLimit limit) (Nat.le_trans hk hle) hn
  | exhausted => exact absurd rfl hr

end Traversal

end Walk

namespace Traversal

variable {t u : Traversal} {choice : Option UInt64} {high : UInt64}

theorem Advanced.raise {r : Except Fault Node} (h : Advanced t choice r u)
    (hr : ∀ limit, r ≠ .error (.stepLimit limit)) (hle : t.play.project.stepLimit ≤ high) :
    Advanced (t.withLimit high) choice r (u.withLimit high) := by
  have hle' := UInt64.le_iff_toNat_le.mp hle
  cases h with
  | unset hc => exact .unset hc
  | lost hc hn => exact .lost hc hn
  | stuck hc hn hb => exact .stuck hc hn hb
  | refused hc hn hb hi => exact .refused hc hn hb hi
  | ended hc hn hb => exact .ended hc hn hb
  | landed hl he => exact .landed hl (he.raise (by simp) hle' high)
  | broke hl he => exact .broke hl (he.raise (by simp) hle' high)
  | exceeded => exact absurd rfl (hr _)
  | overflowed hl he hmax =>
    -- There is no limit above the greatest one.
    have hsame : t.play.project.stepLimit = high := by
      have hlt := high.toNat_lt
      exact UInt64.toNat_inj.mp (by omega)
    subst hsame
    exact .overflowed hl he hmax

theorem advance_raise (hle : t.play.project.stepLimit ≤ high)
    (hr : ∀ limit, (t.advance choice).1 ≠ .error (.stepLimit limit)) :
    (t.withLimit high).advance choice =
      ((t.advance choice).1, (t.advance choice).2.withLimit high) :=
  ((t.advance_advanced choice).raise hr hle).eq

theorem advance_limit {limit : UInt64} (h : (t.advance choice).1 = .error (.stepLimit limit)) :
    limit = t.play.project.stepLimit := by
  have ha := t.advance_advanced choice
  generalize (t.advance choice).2 = u at ha
  rw [h] at ha
  cases ha
  rfl

theorem new_withLimit (play : Playthrough) (name : String) (limit : UInt64) :
    new (play.withLimit limit) name = (new play name).map (·.withLimit limit) := by
  change Except.map _ (play.project.experience name) = _
  unfold new
  cases play.project.experience name <;> rfl

theorem start_withLimit (t : Traversal) (name : String) (limit : UInt64) :
    (t.withLimit limit).start name = ((t.start name).1, (t.start name).2.withLimit limit) := by
  cases hs : t.experience.start? name with
  | none =>
    rw [start_missing hs, start_missing (t := t.withLimit limit) hs]
    rfl
  | some first =>
    have hnode : node? { t.withLimit limit with current := some first.id } first.id =
        node? { t with current := some first.id } first.id := rfl
    have hstart : (t.withLimit limit).experience.start? name = some first := hs
    cases hn : node? { t with current := some first.id } first.id <;>
      simp only [start, hs, hstart, hnode, hn] <;> rfl

theorem enter_withLimit (t : Traversal) (experience name : String) (limit : UInt64) :
    (t.withLimit limit).enter experience name =
      ((t.enter experience name).1, (t.enter experience name).2.withLimit limit) := by
  rcases t.enter_cases experience name with ⟨fault, he, h⟩ | ⟨e, he, hs, h⟩ | ⟨e, node, he, hs, h⟩
  · rw [h]
    exact enter_unknown (t := t.withLimit limit) he
  · rw [h]
    exact enter_missing (t := t.withLimit limit) he hs
  · rw [h]
    exact enter_found (t := t.withLimit limit) he hs

end Traversal

namespace Session

theorem write_withLimit (s : Session) (result : Except Fault Variables) (limit : UInt64) :
    (s.withLimit limit).write result =
      ((s.write result).1, (s.write result).2.withLimit limit) := by
  cases result <;> cases s <;> rfl

theorem move_withLimit {t : Traversal} {limit : UInt64}
    (f : Traversal → Except Fault Node × Traversal)
    (h : f (t.withLimit limit) = ((f t).1, (f t).2.withLimit limit)) :
    ((Session.opened t).withLimit limit).move f =
      (((Session.opened t).move f).1, ((Session.opened t).move f).2.withLimit limit) := by
  change (Reply.ofExcept _ (f (t.withLimit limit)).1, Session.opened (f (t.withLimit limit)).2) = _
  rw [h]
  rfl

theorem open_withLimit (s : Session) (name : String) (limit : UInt64) :
    (s.withLimit limit).perform (.openExperience name) =
      ((s.perform (.openExperience name)).1,
        (s.perform (.openExperience name)).2.withLimit limit) := by
  have hplay : (s.withLimit limit).play = s.play.withLimit limit := s.setPlay_play _
  simp only [perform, hplay, Traversal.new_withLimit]
  cases Traversal.new s.play name <;> rfl

variable {s : Session} {high : UInt64}

/-- Two calls can tell a greater limit: one that asks for the limit, and an advance that exceeds the
smaller one. -/
theorem perform_withLimit {c : Command} (hle : s.play.project.stepLimit ≤ high)
    (hask : c ≠ .stepLimit)
    (hwithin : ∀ choice, c = .advance choice →
      ∀ limit, (s.perform c).1 ≠ .fault (.stepLimit limit)) :
    (s.withLimit high).perform c = ((s.perform c).1, (s.perform c).2.withLimit high) := by
  cases c with
  | openExperience name => exact s.open_withLimit name high
  | start name =>
    cases s with
    | closed play => rfl
    | opened t => exact move_withLimit (·.start name) (t.start_withLimit name high)
  | enter experience name =>
    cases s with
    | closed play => rfl
    | opened t =>
      exact move_withLimit (·.enter experience name) (t.enter_withLimit experience name high)
  | advance choice =>
    cases s with
    | closed play => rfl
    | opened t =>
      apply move_withLimit (·.advance choice)
      apply Traversal.advance_raise hle
      intro limit h
      exact hwithin choice rfl limit (congrArg (Reply.ofExcept (.node ∘ some)) h)
  | set name value => cases s <;> exact write_withLimit _ _ high
  | assign a => cases s <;> exact write_withLimit _ _ high
  | stepLimit => exact absurd rfl hask
  | _ => cases s <;> rfl

theorem run_withLimit {commands : List Command} (hle : s.play.project.stepLimit ≤ high)
    (hask : .stepLimit ∉ commands)
    (hwithin : ∀ choice reply, (.advance choice, reply) ∈ commands.zip (s.run commands).1 →
      ∀ limit, reply ≠ .fault (.stepLimit limit)) :
    (s.withLimit high).run commands = ((s.run commands).1, (s.run commands).2.withLimit high) := by
  induction commands generalizing s with
  | nil => rfl
  | cons c rest ih =>
    have hc : (s.withLimit high).perform c =
        ((s.perform c).1, (s.perform c).2.withLimit high) := by
      apply perform_withLimit hle (fun h => hask (h ▸ List.mem_cons_self))
      rintro choice rfl
      exact hwithin choice _ List.mem_cons_self
    have hrest := ih (s := (s.perform c).2)
      (by rwa [(s.perform_called c).project])
      (fun h => hask (List.mem_cons_of_mem c h))
      (fun choice reply h => hwithin choice reply (List.mem_cons_of_mem _ h))
    simp only [run, hc, hrest]

end Session

/-- Of two limits the greater one changes nothing while no advance exceeds the smaller: the project
loads to the same graphs and variables, every call has the same answer, and variables, source, open
experience and cursor are the same in the end. And what exceeds the greater limit exceeds the
smaller one from the same state. -/
theorem limit_only_gives_up (document : Document) (low high : UInt64) (hle : low ≤ high) :
    Project.load document high = (Project.load document low).map (·.withLimit high) ∧
    (∀ p, Project.load document low = .ok p → ∀ (source : RandomSource) (commands : List Command),
      .stepLimit ∉ commands →
      let loaded := Session.closed (.new p source)
      (∀ choice reply, (.advance choice, reply) ∈ commands.zip (loaded.run commands).1 →
        ∀ limit, reply ≠ .fault (.stepLimit limit)) →
      (Session.closed (.new (p.withLimit high) source)).run commands =
        ((loaded.run commands).1, (loaded.run commands).2.withLimit high)) ∧
    ∀ (t : Traversal) (choice : Option UInt64),
      ((t.withLimit high).advance choice).1 = .error (.stepLimit high) →
      ((t.withLimit low).advance choice).1 = .error (.stepLimit low) := by
  refine ⟨Project.load_withLimit document low high, ?_, ?_⟩
  · intro p hp source commands hask loaded hwithin
    obtain ⟨_, rfl⟩ := Project.load_ok_iff.mp hp
    exact Session.run_withLimit hle hask hwithin
  · intro t choice hhigh
    by_contra hlow
    have hwithin : ∀ limit, ((t.withLimit low).advance choice).1 ≠ .error (.stepLimit limit) := by
      intro limit h
      have hlimit : limit = low := Traversal.advance_limit h
      exact hlow (hlimit ▸ h)
    have hsame : (t.withLimit high).advance choice = _ :=
      Traversal.advance_raise (t := t.withLimit low) hle hwithin
    rw [hsame] at hhigh
    exact hwithin high hhigh

def stairsRun : List Command :=
  [.openExperience "Cellar", .start "Stairs", .advance none, .advance none, .get "gold"]

/-- The four transit nodes below the stairs use up a limit of four, so a limit of nine makes no
difference to the run. They exceed a limit of three, and so one of two. -/
theorem stairs_give_up_by_limit :
    (4 : UInt64) ≤ 9 ∧ Project.load inn.document 4 = .ok inn ∧ .stepLimit ∉ stairsRun ∧
    (∀ choice reply, (.advance choice, reply) ∈
        stairsRun.zip ((Session.closed (.new inn (.cycle #[0]))).run stairsRun).1 →
      ∀ limit, reply ≠ .fault (.stepLimit limit)) ∧
    (Session.closed (.new (inn.withLimit 9) (.cycle #[0]))).run stairsRun =
      (((Session.closed (.new inn (.cycle #[0]))).run stairsRun).1,
        ((Session.closed (.new inn (.cycle #[0]))).run stairsRun).2.withLimit 9) ∧
    ((onStairs.withLimit 3).advance none).1 = .error (.stepLimit 3) ∧
    ((onStairs.withLimit 2).advance none).1 = .error (.stepLimit 2) := by
  have hle : (4 : UInt64) ≤ 9 := by decide
  have hload : Project.load inn.document 4 = .ok inn := Project.load_ok_iff.mpr ⟨rfl, rfl⟩
  have hask : .stepLimit ∉ stairsRun := by simp [stairsRun]
  have hreplies : (((Session.closed (.new inn (.cycle #[0]))).run stairsRun).1.all fun
      | .fault (.stepLimit _) => false
      | _ => true) = true := by
    decide +kernel
  have hwithin : ∀ choice reply, (.advance choice, reply) ∈
      stairsRun.zip ((Session.closed (.new inn (.cycle #[0]))).run stairsRun).1 →
      ∀ limit, reply ≠ .fault (.stepLimit limit) := by
    rintro choice reply hmem limit rfl
    cases List.all_eq_true.mp hreplies _ (List.of_mem_zip hmem).2
  have hthree : ((onStairs.withLimit 3).advance none).1 = .error (.stepLimit 3) := by
    decide +kernel
  have hrun := (limit_only_gives_up inn.document 4 9 hle).2.1 inn hload (.cycle #[0]) stairsRun
    hask hwithin
  have htwo := (limit_only_gives_up inn.document 2 3 (by decide)).2.2 onStairs none hthree
  exact ⟨hle, hload, hask, hwithin, hrun, hthree, htwo⟩

end Storyline

import Storyline.Proofs.Advance
import Storyline.Proofs.Cursor
import Storyline.Proofs.DocumentRoundTrip
import Storyline.Proofs.Evolution
import Storyline.Proofs.OrderLines
import Storyline.Session

/-! # The player as a session

Some orders make a call of the session, one selects an experience, and the others change nothing. So
what has come of the lines read so far is what comes of the calls they ask for.
-/
namespace Storyline

theorem Project.read_stepLimit {content : String} {limit : UInt64} {project : Project}
    (h : Project.read content limit = .ok project) : project.stepLimit = limit := by
  unfold Project.read at h
  split at h
  · exact (Project.load_ok_iff.mp h).2
  · cases h

namespace Shell

/-- The call that a word and its argument stand for, while an experience is selected. -/
inductive Calls (selected : String) : String → List Char → Command → Prop where
  | start {name : List Char} : name ≠ [] →
    Calls selected "start" name (.enter selected (.ofList name))
  | next {word : String} {argument : List Char} : word ∈ ["next", "n"] →
    Calls selected word argument (.advance none)
  | choose {word : String} {argument : List Char} {index : UInt64} : word ∈ ["choose", "c"] →
    IndexText argument index → Calls selected word argument (.advance (some index))
  | set {argument name value : List Char} : Binds argument name value →
    Calls selected "set" argument (.set (.ofList name) (.ofList value))
  | reset {argument : List Char} : Calls selected "reset" argument .reset

def Asks (selected : String) (line : List Char) (c : Command) : Prop :=
  ∃ word argument, Says line word argument ∧ Calls selected word argument c

def Selects (project : Project) (line : List Char) (name : String) : Prop :=
  ∃ argument, Says line "use" argument ∧ argument ≠ [] ∧ name = .ofList argument ∧
    ∃ e ∈ project.experiences, e.name = name

def Quits (line : List Char) : Prop :=
  ∃ word argument, Says line word argument ∧ word ∈ ["quit", "exit", "q"]

/-- The calls that lines ask for up to the first that quits, and the experience that is selected
at the end. -/
inductive Follows (project : Project) : String → List (List Char) → List Command → String → Prop
    where
  | done {selected} : Follows project selected [] [] selected
  | quit {selected line rest} : Quits line → Follows project selected (line :: rest) [] selected
  | call {selected line rest c calls last} : Asks selected line c →
    Follows project selected rest calls last →
    Follows project selected (line :: rest) (c :: calls) last
  | select {selected line rest name calls last} : Selects project line name →
    Follows project name rest calls last → Follows project selected (line :: rest) calls last
  | other {selected line rest calls last} : ¬ Quits line → (∀ c, ¬ Asks selected line c) →
    (∀ name, ¬ Selects project line name) → Follows project selected rest calls last →
    Follows project selected (line :: rest) calls last

namespace Order

def call? (selected : String) : Order → Option Command
  | .start (some name) => some (.enter selected name)
  | .next => some (.advance none)
  | .choose (some index) => some (.advance (some index))
  | .set (some (name, value)) => some (.set name value)
  | .reset => some .reset
  | _ => none

def selects? (project : Project) : Order → Option String
  | .use (some name) => if (project.experience name).toOption.isSome then some name else none
  | _ => none

/-- The orders that words and arguments name. Some make a call or select an experience or quit; an
order that does none of this is idle. -/
inductive Names : String → List Char → Order → Prop where
  | quit {word : String} {argument : List Char} : word ∈ ["quit", "exit", "q"] →
    Names word argument .quit
  | use {argument : List Char} :
    Names "use" argument (.use (if argument.isEmpty then none else some (.ofList argument)))
  | start {argument : List Char} :
    Names "start" argument (.start (if argument.isEmpty then none else some (.ofList argument)))
  | next {word : String} {argument : List Char} : word ∈ ["next", "n"] → Names word argument .next
  | choose {word : String} {argument : List Char} : word ∈ ["choose", "c"] →
    Names word argument (.choose (unsigned? argument))
  | set {argument : List Char} : Names "set" argument (.set (binding? argument))
  | reset {argument : List Char} : Names "reset" argument .reset
  | idle {word : String} {argument : List Char} {o : Order} :
    (∀ selected, o.call? selected = none) → (∀ project, o.selects? project = none) → o ≠ .quit →
    Names word argument o

theorem ofWord_names (word : String) (argument : List Char) :
    Names word argument (ofWord word argument) := by
  unfold ofWord
  dsimp only
  split
  all_goals first
    | exact .quit (by simp)
    | exact .use
    | exact .start
    | exact .next (by simp)
    | exact .choose (by simp)
    | exact .set
    | exact .reset
    | exact .idle (fun _ => rfl) (fun _ => rfl) nofun

section Meaning

variable {project : Project} {selected word name : String} {argument : List Char} {c : Command}

theorem call?_start_iff :
    (start (if argument.isEmpty then none else some (.ofList argument))).call? selected = some c ↔
      argument ≠ [] ∧ c = .enter selected (.ofList argument) := by
  cases argument with
  | nil =>
    refine ⟨fun h => ?_, fun h => absurd rfl h.1⟩
    cases h
  | cons first rest =>
    refine ⟨fun h => ⟨List.cons_ne_nil first rest, (Option.some.inj h).symm⟩, ?_⟩
    rintro ⟨_, rfl⟩
    rfl

theorem call?_choose_iff :
    (choose (unsigned? argument)).call? selected = some c ↔
      ∃ index, IndexText argument index ∧ c = .advance (some index) := by
  have hcall : (choose (unsigned? argument)).call? selected =
      (unsigned? argument).map fun index => .advance (some index) := by
    cases unsigned? argument <;> rfl
  rw [hcall, Option.map_eq_some_iff]
  simp only [unsigned?_eq_some_iff]
  exact exists_congr fun _ => and_congr_right fun _ => eq_comm

theorem call?_set_iff :
    (set (binding? argument)).call? selected = some c ↔
      ∃ n v, Binds argument n v ∧ c = .set (.ofList n) (.ofList v) := by
  have hcall : (set (binding? argument)).call? selected =
      (binding? argument).map fun (name, value) => .set name value := by
    rcases binding? argument with _ | ⟨name, value⟩ <;> rfl
  rw [hcall, Option.map_eq_some_iff]
  constructor
  · rintro ⟨⟨name, value⟩, hread, rfl⟩
    obtain ⟨n, v, hbinds, rfl, rfl⟩ := binding?_eq_some_iff.mp hread
    exact ⟨n, v, hbinds, rfl⟩
  · rintro ⟨n, v, hbinds, rfl⟩
    exact ⟨_, binding?_eq_some_iff.mpr ⟨n, v, hbinds, rfl, rfl⟩, rfl⟩

theorem call?_ofWord_iff :
    (ofWord word argument).call? selected = some c ↔ Calls selected word argument c := by
  constructor
  · intro h
    have hnames := ofWord_names word argument
    generalize ofWord word argument = o at hnames h
    cases hnames with
    | quit => cases h
    | use => cases h
    | start =>
      obtain ⟨hsome, rfl⟩ := call?_start_iff.mp h
      exact .start hsome
    | next hword =>
      obtain rfl := Option.some.inj h
      exact .next hword
    | choose hword =>
      obtain ⟨index, hindex, rfl⟩ := call?_choose_iff.mp h
      exact .choose hword hindex
    | set =>
      obtain ⟨name, value, hbinds, rfl⟩ := call?_set_iff.mp h
      exact .set hbinds
    | reset =>
      obtain rfl := Option.some.inj h
      exact .reset
    | idle hcall =>
      rw [hcall] at h
      cases h
  · intro h
    cases h with
    | start hsome => exact call?_start_iff.mpr ⟨hsome, rfl⟩
    | next hword =>
      rw [List.mem_pair] at hword
      rcases hword with rfl | rfl <;> rfl
    | @choose _ _ index hword hindex =>
      have hcall : (choose (unsigned? argument)).call? selected = some (.advance (some index)) :=
        call?_choose_iff.mpr ⟨index, hindex, rfl⟩
      rw [List.mem_pair] at hword
      rcases hword with rfl | rfl <;> exact hcall
    | set hbinds => exact call?_set_iff.mpr ⟨_, _, hbinds, rfl⟩
    | reset => rfl

theorem selects?_use_iff :
    (use (if argument.isEmpty then none else some (.ofList argument))).selects? project =
        some name ↔
      argument ≠ [] ∧ name = .ofList argument ∧ ∃ e ∈ project.experiences, e.name = name := by
  have hloaded : ∀ name, (project.experience name).toOption.isSome ↔
      ∃ e ∈ project.experiences, e.name = name := by
    intro name
    simp only [← Project.experience_iff]
    cases project.experience name <;> simp [Except.toOption]
  cases argument with
  | nil => simp [selects?]
  | cons c rest =>
    simp only [List.isEmpty_cons, Bool.false_eq_true, if_false, selects?,
      Option.ite_none_right_eq_some, Option.some.injEq, hloaded]
    grind

theorem selects?_ofWord_iff :
    (ofWord word argument).selects? project = some name ↔
      word = "use" ∧ argument ≠ [] ∧ name = .ofList argument ∧
        ∃ e ∈ project.experiences, e.name = name := by
  constructor
  · intro h
    have hnames := ofWord_names word argument
    generalize ofWord word argument = o at hnames h
    cases hnames with
    | use => exact ⟨rfl, selects?_use_iff.mp h⟩
    | idle _ hselects =>
      rw [hselects] at h
      cases h
    | _ => cases h
  · rintro ⟨rfl, h⟩
    exact selects?_use_iff.mpr h

theorem ofWord_quit_iff : ofWord word argument = .quit ↔ word ∈ ["quit", "exit", "q"] := by
  constructor
  · intro h
    have hnames := ofWord_names word argument
    rw [h] at hnames
    cases hnames with
    | quit hword => exact hword
    | idle _ _ hquit => exact absurd rfl hquit
  · intro hword
    simp only [List.mem_cons, List.not_mem_nil, or_false] at hword
    rcases hword with rfl | rfl | rfl <;> rfl

end Meaning

end Order

section Lines

variable {project : Project} {selected name : String} {line : List Char} {c : Command}

theorem asks_iff : Asks selected line c ↔ (Order.read line).call? selected = some c := by
  rw [Order.read_iff (P := fun o => o.call? selected = some c) nofun]
  simp only [Order.call?_ofWord_iff, Asks]

theorem selects_iff :
    Selects project line name ↔ (Order.read line).selects? project = some name := by
  rw [Order.read_iff (P := fun o => o.selects? project = some name) nofun]
  simp only [Order.selects?_ofWord_iff, Selects]
  grind

theorem quits_iff : Quits line ↔ Order.read line = .quit := by
  rw [Order.read_iff (P := (· = .quit)) (by simp)]
  simp only [Order.ofWord_quit_iff, Quits]

theorem Selects.asks_nothing (h : Selects project line name) : ¬ Asks selected line c := by
  rw [selects_iff] at h
  rw [asks_iff]
  unfold Order.selects? at h
  split at h
  · next name hread =>
    rw [hread]
    nofun
  · cases h

theorem Quits.asks_nothing (h : Quits line) : ¬ Asks selected line c := by
  rw [asks_iff, quits_iff.mp h]
  nofun

theorem Quits.selects_nothing (h : Quits line) : ¬ Selects project line name := by
  rw [selects_iff, quits_iff.mp h]
  nofun

theorem Asks.unique {c' : Command} (h : Asks selected line c) (h' : Asks selected line c') :
    c = c' :=
  Option.some.inj ((asks_iff.mp h).symm.trans (asks_iff.mp h'))

theorem Selects.unique {name' : String} (h : Selects project line name)
    (h' : Selects project line name') : name = name' :=
  Option.some.inj ((selects_iff.mp h).symm.trans (selects_iff.mp h'))

theorem Follows.unique {lines : List (List Char)} {calls calls' : List Command}
    {last last' : String} (h : Follows project selected lines calls last)
    (h' : Follows project selected lines calls' last') : calls = calls' ∧ last = last' := by
  induction h generalizing calls' last' with
  | done =>
    cases h'
    exact ⟨rfl, rfl⟩
  | quit hquits =>
    cases h' with
    | quit => exact ⟨rfl, rfl⟩
    | call hasks => exact absurd hasks hquits.asks_nothing
    | select hselects => exact absurd hselects hquits.selects_nothing
    | other hnot => exact absurd hquits hnot
  | call hasks _ ih =>
    cases h' with
    | quit hquits => exact absurd hasks hquits.asks_nothing
    | call hasks' hrest =>
      obtain ⟨rfl, rfl⟩ := ih hrest
      exact ⟨by rw [hasks.unique hasks'], rfl⟩
    | select hselects => exact absurd hasks hselects.asks_nothing
    | other _ hnot => exact absurd hasks (hnot _)
  | select hselects _ ih =>
    cases h' with
    | quit hquits => exact absurd hselects hquits.selects_nothing
    | call hasks => exact absurd hasks hselects.asks_nothing
    | select hselects' hrest => exact ih (hselects.unique hselects' ▸ hrest)
    | other _ _ hnot => exact absurd hselects (hnot _)
  | other hnot hasks hselects _ ih =>
    cases h' with
    | quit hquits => exact absurd hquits hnot
    | call hasks' => exact absurd hasks' (hasks _)
    | select hselects' => exact absurd hselects' (hselects _)
    | other _ _ _ hrest => exact ih hrest

theorem Follows.loaded {lines : List (List Char)} {calls : List Command} {last : String}
    (h : Follows project selected lines calls last)
    (hselected : ∃ e ∈ project.experiences, e.name = selected) :
    ∃ e ∈ project.experiences, e.name = last := by
  induction h with
  | done => exact hselected
  | quit => exact hselected
  | call _ _ ih => exact ih hselected
  | select hselects _ ih =>
    obtain ⟨_, _, _, _, hloaded⟩ := hselects
    exact ih hloaded
  | other _ _ _ _ ih => exact ih hselected

end Lines

namespace Player

variable {p : Player} {o : Order} {c : Command} {name : String}

theorem respond_call (h : o.call? p.selected = some c) :
    Session.opened (p.respond o).1.traversal = ((Session.opened p.traversal).perform c).2 ∧
      (p.respond o).1.selected = p.selected := by
  cases o with
  | start name =>
    cases name with
    | none => cases h
    | some name =>
      cases h
      exact ⟨rfl, rfl⟩
  | next =>
    cases h
    exact ⟨rfl, rfl⟩
  | choose index =>
    cases index with
    | none => cases h
    | some index =>
      cases h
      exact ⟨rfl, rfl⟩
  | set binding =>
    rcases binding with _ | ⟨name, value⟩
    · cases h
    · cases h
      simp only [respond, Session.perform, Session.play]
      cases p.traversal.play.store.set name value <;> exact ⟨rfl, rfl⟩
  | reset =>
    cases h
    exact ⟨rfl, rfl⟩
  | _ => cases h

theorem respond_select (h : o.selects? p.traversal.play.project = some name) :
    (p.respond o).1 = { p with selected := name } := by
  unfold Order.selects? at h
  split at h
  · next name =>
    obtain ⟨hloaded, hname⟩ := Option.ite_none_right_eq_some.mp h
    cases hname
    cases he : p.traversal.play.project.experience name with
    | ok e => simp [respond, he]
    | error fault => simp [he, Except.toOption] at hloaded
  · cases h

theorem respond_other (hcall : o.call? p.selected = none)
    (hselect : o.selects? p.traversal.play.project = none) : (p.respond o).1 = p := by
  cases o with
  | use name =>
    cases name with
    | none => rfl
    | some name =>
      cases he : p.traversal.play.project.experience name with
      | ok e => simp [Order.selects?, he, Except.toOption] at hselect
      | error fault => simp [respond, he]
  | start name =>
    cases name with
    | none => rfl
    | some name => cases hcall
  | next => cases hcall
  | choose index =>
    cases index with
    | none => rfl
    | some index => cases hcall
  | set binding =>
    cases binding with
    | none => rfl
    | some binding => cases hcall
  | reset => cases hcall
  | get name =>
    simp only [respond]
    split <;> rfl
  | item name =>
    simp only [respond]
    split <;> rfl
  | _ => rfl

theorem respond_project (p : Player) (o : Order) :
    (p.respond o).1.traversal.play.project = p.traversal.play.project := by
  cases hcall : o.call? p.selected with
  | some c =>
    have hsame := (Session.perform_called (.opened p.traversal) c).project
    rwa [← (respond_call hcall).1] at hsame
  | none =>
    cases hselect : o.selects? p.traversal.play.project with
    | some name => rw [respond_select hselect]
    | none => rw [respond_other hcall hselect]

section Conversation

variable {line : List Char} {rest : List (List Char)}

theorem converse_quit (h : Order.read line = .quit) :
    p.converse (line :: rest) = (p, [p.prompt, "Goodbye.\n"]) := by
  rw [converse, h]
  rfl

theorem converse_order (h : Order.read line ≠ .quit) :
    p.converse (line :: rest) = (((p.respond (Order.read line)).1.converse rest).1,
      p.prompt :: (p.respond (Order.read line)).2 ::
        ((p.respond (Order.read line)).1.converse rest).2) := by
  rw [converse]
  split
  · next hquit => exact absurd hquit h
  · rfl

theorem converse_follows (p : Player) (lines : List (List Char)) :
    ∃ calls, Follows p.traversal.play.project p.selected lines calls (p.converse lines).1.selected ∧
      ((Session.opened p.traversal).run calls).2 = .opened (p.converse lines).1.traversal := by
  induction lines generalizing p with
  | nil => exact ⟨[], .done, rfl⟩
  | cons line rest ih =>
    by_cases hquit : Order.read line = .quit
    · rw [converse_quit hquit]
      exact ⟨[], .quit (quits_iff.mpr hquit), rfl⟩
    · -- the line makes a call, selects an experience or leaves the player as it is
      obtain ⟨calls, hfollows, hrun⟩ := ih (p.respond (Order.read line)).1
      rw [respond_project] at hfollows
      rw [converse_order hquit]
      cases hcall : (Order.read line).call? p.selected with
      | some c =>
        obtain ⟨hstate, hselected⟩ := respond_call hcall
        rw [hselected] at hfollows
        rw [hstate] at hrun
        exact ⟨c :: calls, .call (asks_iff.mpr hcall) hfollows, hrun⟩
      | none =>
        cases hselect : (Order.read line).selects? p.traversal.play.project with
        | some name =>
          rw [respond_select hselect] at hfollows hrun ⊢
          exact ⟨calls, .select (selects_iff.mpr hselect) hfollows, hrun⟩
        | none =>
          rw [respond_other hcall hselect] at hfollows hrun ⊢
          refine ⟨calls, .other ?_ (fun c => ?_) (fun name => ?_) hfollows, hrun⟩
          · rwa [quits_iff]
          · simp [asks_iff, hcall]
          · simp [selects_iff, hselect]

theorem converse_prompts (p : Player) (lines : List (List Char)) {k : Nat}
    (hk : 2 * k < (p.converse lines).2.length) :
    (p.converse lines).2[2 * k]? = some (p.converse (lines.take k)).1.prompt := by
  induction lines generalizing p k with
  | nil =>
    obtain rfl : k = 0 := by
      simp [converse] at hk
      omega
    rfl
  | cons line rest ih =>
    by_cases hquit : Order.read line = .quit
    · rw [converse_quit hquit] at hk ⊢
      obtain rfl : k = 0 := by
        simp at hk
        omega
      rfl
    · rw [converse_order hquit] at hk ⊢
      cases k with
      | zero => rfl
      | succ k =>
        simp only [List.length_cons] at hk
        rw [List.take_succ_cons, converse_order hquit]
        exact ih _ (by omega)

end Conversation

theorem launch_ok {file : String → File} {source : Option UInt64 → RandomSource}
    {path content : String} {options : List String} {seed : Option UInt64} {project : Project}
    {first : Experience} {others : List Experience} (hpath : path ∉ ["--help", "-h"])
    (hoptions : seed? none options = .ok seed) (hfile : file path = .text content)
    (hread : Project.read content Project.defaultStepLimit = .ok project)
    (hfirst : project.experiences = first :: others) :
    launch file source (path :: options) =
      .ok ⟨⟨.new project (source seed), first, none⟩, first.name⟩ := by
  have hhelp : ¬ (path = "--help" ∨ path = "-h") := by simpa using hpath
  simp only [launch, hhelp, if_false, hoptions, hfile, hread, new?, Playthrough.new, hfirst]
  rfl

/-- The player stands where the calls for the lines lead to, with the experience selected that the
lines select. It is loaded, so a start node is looked for in it, and no call breaks off. -/
structure Mirrors (project : Project) (source : RandomSource) (first : String)
    (lines : List (List Char)) (p : Player) : Prop where
  follows : ∃ calls, (∀ calls' last,
      Follows project first lines calls' last ↔ calls' = calls ∧ last = p.selected) ∧
    ((Session.closed (.new project source)).run (.openExperience first :: calls)).2 =
      .opened p.traversal
  loaded : ∃ e ∈ project.experiences, e.name = p.selected
  enters : ∀ name unknown,
    (p.traversal.enter p.selected name).1 ≠ .error (.unknownExperience unknown)
  returns : ∀ choice, (p.traversal.advance choice).1 ≠ .error .stepOverflow

theorem converse_mirrors {project : Project} {first : Experience}
    (hfirst : first ∈ project.experiences) (hlimit : project.stepLimit.toNat < 2 ^ 64 - 1)
    (source : RandomSource) (lines : List (List Char)) :
    Mirrors project source first.name lines
      (converse ⟨⟨.new project source, first, none⟩, first.name⟩ lines).1 := by
  obtain ⟨calls, hfollows, hrun⟩ :=
    converse_follows ⟨⟨.new project source, first, none⟩, first.name⟩ lines
  generalize converse ⟨⟨.new project source, first, none⟩, first.name⟩ lines = after at *
  have hopen : ((Session.closed (.new project source)).perform (.openExperience first.name)).2 =
      .opened ⟨.new project source, first, none⟩ := by
    have hnew : Traversal.new (.new project source) first.name =
        .ok ⟨.new project source, first, none⟩ :=
      Traversal.new_ok_iff.mpr ⟨first, Project.experience_iff.mpr ⟨hfirst, rfl⟩, rfl⟩
    simp only [Session.perform, Session.play, hnew]
  have hproject : after.1.traversal.play.project = project := by
    have hsame := (Session.run_evolves
      (.opened ⟨.new project source, first, none⟩) calls).1
    rwa [hrun] at hsame
  have hloaded : ∃ e ∈ project.experiences, e.name = after.1.selected :=
    hfollows.loaded ⟨first, hfirst, rfl⟩
  refine ⟨⟨calls, fun calls' last => ⟨fun h => h.unique hfollows, ?_⟩, ?_⟩, hloaded, ?_, ?_⟩
  · rintro ⟨rfl, rfl⟩
    exact hfollows
  · rw [← hrun, ← hopen]
    rfl
  · intro name unknown hunknown
    obtain ⟨e, he, hname⟩ := hloaded
    have hfound : after.1.traversal.play.project.experience after.1.selected = .ok e := by
      rw [hproject, Project.experience_iff]
      exact ⟨he, hname⟩
    cases hstart : e.start? name with
    | none => simp [Traversal.enter_missing hfound hstart] at hunknown
    | some node => simp [Traversal.enter_found hfound hstart] at hunknown
  · intro choice
    exact (after.1.traversal.advance_advanced choice).no_overflow (by rwa [hproject])

end Player

/-- A session at the terminal is a run of the library: after each line the player stands where the
calls that the lines ask for lead to, and the prompt names the open experience. -/
theorem player_follows_library {file : String → File} {source : Option UInt64 → RandomSource}
    {path content input : String} {options : List String} {seed : Option UInt64}
    {project : Project} {first : Experience} {others : List Experience}
    {lines : List (List Char)} (hpath : path ∉ ["--help", "-h"])
    (hoptions : Player.seed? none options = .ok seed) (hfile : file path = .text content)
    (hread : Project.read content Project.defaultStepLimit = .ok project)
    (hfirst : project.experiences = first :: others) (hlines : Consists input.toList lines) :
    ∃ p, Player.launch file source (path :: options) = .ok p ∧
      Player.run file source (path :: options) input =
        ⟨0, String.join (p.greeting :: (p.converse lines).2), ""⟩ ∧
      ∀ k, Player.Mirrors project (source seed) first.name (lines.take k)
          (p.converse (lines.take k)).1 ∧
        (2 * k < (p.converse lines).2.length → (p.converse lines).2[2 * k]? =
          some ((p.converse (lines.take k)).1.traversal.experience.name ++ "> ")) := by
  have hlaunch : Player.launch file source (path :: options) = .ok _ :=
    Player.launch_ok hpath hoptions hfile hread hfirst
  have hlimit : project.stepLimit.toNat < 2 ^ 64 - 1 := by
    rw [Project.read_stepLimit hread]
    decide
  refine ⟨_, hlaunch, ?_, fun k => ⟨?_, fun hk => ?_⟩⟩
  · rw [Player.run, hlaunch, lines_eq_iff.mpr hlines]
  · exact Player.converse_mirrors (by simp [hfirst]) hlimit (source seed) (lines.take k)
  · rw [Player.converse_prompts _ _ hk]
    rfl

def guestHouse : Project := { inn with stepLimit := Project.defaultStepLimit }

def guestInput : String := paragraph ["\tSTART Stairs ", "use Hall", "", "use Attic", "next",
  "set gold  3 coins", "choose one", "C +0", "quit", "reset"]

/-- The fifth line leads over from the cellar to the hall. The last one is not read. -/
theorem visit_follows_library :
    let file : String → File := fun _ => .text guestHouse.document.write
    let source : Option UInt64 → RandomSource := fun _ => .cycle #[0]
    Project.read guestHouse.document.write Project.defaultStepLimit = .ok guestHouse ∧
    ∃ p, Player.launch file source ["inn.json", "--seed", "7"] = .ok p ∧
      (Player.run file source ["inn.json", "--seed", "7"] guestInput).exit = 0 ∧
      let q := (p.converse (lines guestInput.toList)).1
      Player.Mirrors guestHouse (.cycle #[0]) "Cellar" (lines guestInput.toList) q ∧
        q.selected = "Hall" ∧ q.traversal.experience.name = "Hall" ∧
        q.traversal.current = some 7 ∧ q.traversal.play.store.values = ["3 coins"] := by
  intro file source
  have hread : Project.read guestHouse.document.write Project.defaultStepLimit =
      .ok guestHouse := by
    rw [Project.read, Document.read_write]
    rfl
  have hpath : "inn.json" ∉ ["--help", "-h"] := by decide
  have hoptions : Player.seed? none ["--seed", "7"] = .ok (some 7) := by decide +kernel
  obtain ⟨p, hlaunch, hrun, hstates⟩ :=
    @player_follows_library file source "inn.json" _ guestInput _ _ guestHouse cellar [hall] _ hpath
      hoptions rfl hread rfl (consists_lines guestInput.toList)
  have hp : p = ⟨⟨.new guestHouse (source (some 7)), cellar, none⟩, "Cellar"⟩ :=
    Except.ok.inj (hlaunch.symm.trans (Player.launch_ok hpath hoptions rfl hread rfl))
  have hlast := (hstates (lines guestInput.toList).length).1
  rw [List.take_length] at hlast
  refine ⟨hread, p, hlaunch, by rw [hrun], hlast, ?_⟩
  rw [hp]
  decide +kernel

end Shell
end Storyline

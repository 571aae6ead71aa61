import Storyline.Proofs.Landing
import Storyline.Proofs.LintErrors
import Storyline.Proofs.Positions
import Storyline.Proofs.Works

/-! # What the variables hold

The names of a table are those that it was loaded with. Whatever is written, by the host or by the
nodes that an advance passes, a variable holds what was stored in it last since the last reset, and
what it was loaded with if nothing was; a write that fails leaves no trace.
-/
namespace Storyline

namespace Variables

inductive Write where
  | set (name value : String)
  | assign (a : Assignment)
  | reset

inductive Event where
  | stored (name value : String)
  | restored
  deriving DecidableEq

def assigned (t : Variables) (a : Assignment) : Except Fault String := do
  let current ← t.get a.target
  match Operation.ofSymbol? a.symbol with
  | none => .error (.invalidOperator a.symbol .notAssignment)
  | some o => o.apply current a.literal (t.substitute a.literal)

def perform (t : Variables) : Write → Variables
  | .set name value =>
    match t.set name value with
    | .ok u => u
    | .error _ => t
  | .assign a => t.attempt a
  | .reset => t.reset

def events (t : Variables) : Write → List Event
  | .set name value =>
    match t.set name value with
    | .ok _ => [.stored name value]
    | .error _ => []
  | .assign a =>
    match t.assigned a with
    | .ok value => [.stored a.target value]
    | .error _ => []
  | .reset => [.restored]

def run (t : Variables) (writes : List Write) : Variables := writes.foldl perform t

/-- What has come about by a row of writes, the latest first, before what came about `earlier`. -/
def history (t : Variables) (earlier : List Event) : List Write → List Event
  | [] => earlier
  | w :: rest => (t.perform w).history (t.events w ++ earlier) rest

/-- The value stored last under the name, unless a reset has come since. -/
def lastStored (name : String) : List Event → Option String
  | [] => none
  | .restored :: _ => none
  | .stored target value :: earlier =>
    if target = name then some value else lastStored name earlier

def held (history : List Event) (e : Entry) : String := (lastStored e.name history).getD e.value

/-- The table is what these events have made of the loaded entries. -/
def Made (entries : List Entry) (history : List Event) (t : Variables) : Prop :=
  t.slots = entries.map fun e => ⟨e.name, e.value, held history e⟩

theorem load_ok_iff {entries : List Entry} {t : Variables} :
    load entries = .ok t ↔ ∃ hd, t = ofEntries entries hd := by
  constructor
  · intro h
    unfold load at h
    split at h
    · cases h
    · cases h
      exact ⟨_, rfl⟩
  · rintro ⟨hd, rfl⟩
    have hnone : firstRepeat [] (entries.map (·.name)) = none :=
      firstRepeat_eq_none_iff.mpr ⟨hd, by simp⟩
    unfold load
    split
    · simp_all
    · rfl

theorem assign_eq (t : Variables) (a : Assignment) :
    t.assign a = (t.assigned a).bind (t.set a.target) := by
  unfold assign assigned
  cases t.get a.target with
  | error fault => rfl
  | ok current => cases Operation.ofSymbol? a.symbol <;> rfl

theorem set_known {t : Variables} {name : String} (h : name ∈ t.names) (value : String) :
    t.set name value = .ok (t.update fun v => if v.name = name then value else v.current) :=
  if_pos h

theorem set_unknown {t : Variables} {name : String} (h : name ∉ t.names) (value : String) :
    t.set name value = .error (.unknownVariable name) :=
  if_neg h

theorem get_unknown_iff {t : Variables} {name : String} :
    t.get name = .error (.unknownVariable name) ↔ name ∉ t.names := by
  constructor
  · intro h hn
    obtain ⟨value, hv⟩ := get_known hn
    cases hv.symm.trans h
  · intro h
    have hnone : t.slots.find? (·.name == name) = none := by
      simpa [names] using h
    simp only [get, hnone]

theorem assigned_known {t : Variables} {a : Assignment} {value : String}
    (h : t.assigned a = .ok value) : a.target ∈ t.names := by
  by_contra hn
  rw [assigned, get_unknown_iff.mpr hn] at h
  cases h

theorem perform_cases (t : Variables) (w : Write) :
    (t.events w = [] ∧ t.perform w = t) ∨
    (∃ name value, t.events w = [.stored name value] ∧
      t.perform w = t.update fun v => if v.name = name then value else v.current) ∨
    (t.events w = [.restored] ∧ t.perform w = t.reset) := by
  cases w with
  | set name value =>
    by_cases hn : name ∈ t.names
    · exact Or.inr (Or.inl ⟨name, value, by simp [events, perform, set_known hn]⟩)
    · exact Or.inl (by simp [events, perform, set_unknown hn])
  | assign a =>
    cases hv : t.assigned a with
    | error fault =>
      have ha : t.assign a = .error fault := by rw [assign_eq, hv]; rfl
      exact Or.inl (by simp [events, perform, attempt, hv, ha])
    | ok value =>
      have ha : t.assign a = t.set a.target value := by rw [assign_eq, hv]; rfl
      rw [set_known (assigned_known hv)] at ha
      exact Or.inr (Or.inl ⟨a.target, value, by simp [events, perform, attempt, hv, ha]⟩)
  | reset => exact Or.inr (Or.inr ⟨rfl, rfl⟩)

section Made

variable {entries : List Entry} {earlier : List Event} {t : Variables}

theorem ofEntries_made (hd : (entries.map (·.name)).Nodup) :
    Made entries [] (ofEntries entries hd) := rfl

theorem Made.update (h : Made entries earlier t) {later : List Event} {value : Variable → String}
    (hv : ∀ e, value ⟨e.name, e.value, held earlier e⟩ = held later e) :
    Made entries later (t.update value) :=
  calc (t.update value).slots
      = t.slots.map fun v => { v with current := value v } := rfl
    _ = entries.map fun e => ⟨e.name, e.value, held later e⟩ := by
      rw [h, List.map_map]
      exact List.map_congr_left fun e _ => by simp [hv]

theorem Made.perform (h : Made entries earlier t) (w : Write) :
    Made entries (t.events w ++ earlier) (t.perform w) := by
  rcases t.perform_cases w with ⟨he, hp⟩ | ⟨name, value, he, hp⟩ | ⟨he, hp⟩
  · rw [he, hp]
    exact h
  · rw [he, hp]
    refine h.update fun e => ?_
    by_cases hn : e.name = name
    · simp [held, lastStored, hn]
    · simp [held, lastStored, hn, Ne.symm hn]
  · rw [he, hp]
    exact h.update fun e => rfl

theorem Made.run (h : Made entries earlier t) (writes : List Write) :
    Made entries (t.history earlier writes) (t.run writes) := by
  induction writes generalizing earlier t with
  | nil => exact h
  | cons w rest ih => exact ih (h.perform w)

theorem Made.names (h : Made entries earlier t) : t.names = entries.map (·.name) := by
  rw [Variables.names, h, List.map_map]
  rfl

theorem Made.values (h : Made entries earlier t) : t.values = entries.map (held earlier) := by
  rw [Variables.values, h, List.map_map]
  rfl

theorem Made.get (h : Made entries earlier t) {e : Entry} (he : e ∈ entries) :
    t.get e.name = .ok (held earlier e) := by
  have hmem : (⟨e.name, e.value, held earlier e⟩ : Variable) ∈ t.slots := by
    rw [h]
    exact List.mem_map.mpr ⟨e, he, rfl⟩
  exact get_of_mem hmem

/-- What can be told of a table from the entries it was loaded with and what has come about since.
The values are found by the positions that the names had when they were loaded. -/
structure Holds (entries : List Entry) (history : List Event) (t : Variables) : Prop where
  names : t.names = entries.map (·.name)
  size : t.slots.length = entries.length
  unknown : ∀ name, (∃ fault, t.get name = .error fault) ↔ name ∉ entries.map (·.name)
  value : ∀ e ∈ entries, t.get e.name = .ok (held history e)
  listed : t.values = entries.map (held history)
  located : ∃ stored, positions (entries.map (·.name)) = .ok stored ∧
    Locates stored t.values fun name => (t.get name).toOption

theorem Made.holds (h : Made entries earlier t) : Holds entries earlier t where
  names := h.names
  size := by simpa using congrArg List.length h
  unknown name := by
    rw [← h.names]
    constructor
    · rintro ⟨fault, hf⟩ hn
      obtain ⟨value, hv⟩ := get_known hn
      cases hv.symm.trans hf
    · exact fun hn => ⟨_, get_unknown_iff.mpr hn⟩
  value _ he := h.get he
  listed := h.values
  located := h.names ▸ t.names_locate

end Made
end Variables

namespace Session

/-- The writes that a call asks for: those of the host, and those of the nodes that an advance
passes. -/
def writes (s : Session) : Command → List Variables.Write
  | .set name value => [.set name value]
  | .assign a => [.assign a]
  | .reset => [.reset]
  | .advance choice =>
    match s with
    | .closed _ => []
    | .opened t => ((t.works choice).flatMap Transit.assignments).map .assign
  | _ => []

def runWrites (s : Session) : List Command → List Variables.Write
  | [] => []
  | c :: rest => s.writes c ++ (s.perform c).2.runWrites rest

theorem write_store (s : Session) (result : Except Fault Variables) :
    (s.write result).2.play.store = result.toOption.getD s.play.store := by
  cases result with
  | ok u => exact congrArg Playthrough.store (setPlay_play s _)
  | error fault => rfl

theorem perform_written (s : Session) (c : Command) :
    (s.perform c).2.play.store = s.play.store.run (s.writes c) := by
  cases c with
  | openExperience name =>
    cases hn : Traversal.new s.play name with
    | ok t =>
      obtain ⟨e, _, rfl⟩ := Traversal.new_ok_iff.mp hn
      simp only [perform, hn]
      rfl
    | error fault =>
      simp only [perform, hn]
      rfl
  | start name =>
    cases s with
    | closed play => rfl
    | opened t => exact congrArg Playthrough.store (t.start_play name)
  | enter experience name =>
    cases s with
    | closed play => rfl
    | opened t => exact congrArg Playthrough.store (t.enter_play experience name)
  | advance choice =>
    cases s with
    | closed play => rfl
    | opened t =>
      refine (t.advance_written choice).trans ?_
      simp only [writes, Variables.run, List.foldl_map]
      rfl
  | set name value =>
    refine (s.write_store _).trans ?_
    cases hs : s.play.store.set name value <;>
      simp [writes, Variables.run, Variables.perform, hs, Except.toOption]
  | assign a =>
    refine (s.write_store _).trans ?_
    cases ha : s.play.store.assign a <;>
      simp [writes, Variables.run, Variables.perform, Variables.attempt, ha, Except.toOption]
  | reset => exact congrArg Playthrough.store (setPlay_play s _)
  | current | node => cases s <;> rfl
  | draw routes => cases s <;> rfl
  | get | substitute | compare | item | route | names | stepLimit | graph | rawNode | rawStart
  | lint => rfl

theorem run_written (s : Session) (commands : List Command) :
    (s.run commands).2.play.store = s.play.store.run (s.runWrites commands) := by
  induction commands generalizing s with
  | nil => rfl
  | cons c rest ih =>
    rw [runWrites, Variables.run, List.foldl_append]
    exact (ih (s.perform c).2).trans (by rw [perform_written]; rfl)

end Session

/-- Every table keeps the names that it was loaded with, in their order, and nothing else is
known to it. After any writes, whether they succeed or fail, each variable holds what was stored in
it last since the last reset, or else its loaded value; the list of values shows the same, and the
positions of the names at load lead to them. So do the variables of a session after any commands,
where the writes are those of the host and those of the nodes that an advance has passed. -/
theorem variables_hold_last_write (entries : List Entry) (t : Variables)
    (h : Variables.load entries = .ok t) :
    (∀ writes, Variables.Holds entries (t.history [] writes) (t.run writes)) ∧
    ∀ p : Project, p.document.declared = entries → ∀ source commands,
      Variables.Holds entries
        (t.history [] ((Session.closed (.new p source)).runWrites commands))
        ((Session.closed (.new p source)).run commands).2.play.store := by
  obtain ⟨hd, rfl⟩ := Variables.load_ok_iff.mp h
  have hholds : ∀ writes, Variables.Holds entries
      ((Variables.ofEntries entries hd).history [] writes)
      ((Variables.ofEntries entries hd).run writes) :=
    fun writes => ((Variables.ofEntries_made hd).run writes).holds
  refine ⟨hholds, ?_⟩
  rintro p rfl source commands
  rw [Session.run_written]
  exact hholds _

/-- Of the host's writes only the first addition and the last succeed, with a reset between them. -/
def bargain : List Variables.Write :=
  [.assign ⟨"gold", "+", "5"⟩, .set "silver" "1", .assign ⟨"gold", "%", "2"⟩, .reset,
    .assign ⟨"gold", "×", "2"⟩]

def purchase : List Command :=
  [.openExperience "Counter", .start "Bell", .set "gold" "2", .advance none, .set "silver" "1"]

theorem gold_holds_last_write :
    Variables.load shop.document.declared = .ok shop.store ∧
    (shop.store.run bargain).get "gold" = .ok "14" ∧
    ((Session.closed (.new shop (.cycle #[0]))).run purchase).2.play.store.get "gold" =
      .ok "7" := by
  have hload : Variables.load shop.document.declared = .ok shop.store :=
    Variables.load_ok_iff.mpr ⟨shop.variables_distinct, rfl⟩
  have h := variables_hold_last_write shop.document.declared shop.store hload
  have hgold : (⟨"gold", "7"⟩ : Entry) ∈ shop.document.declared := List.mem_singleton_self _
  have hbargain : Variables.held (shop.store.history [] bargain) ⟨"gold", "7"⟩ = "14" := by
    decide +kernel
  have hpurchase : Variables.held (shop.store.history []
      ((Session.closed (.new shop (.cycle #[0]))).runWrites purchase)) ⟨"gold", "7"⟩ = "7" := by
    decide +kernel
  refine ⟨hload, ?_, ?_⟩
  · rw [← hbargain]
    exact (h.1 bargain).value _ hgold
  · rw [← hpurchase]
    exact (h.2 shop rfl (.cycle #[0]) purchase).value _ hgold

end Storyline

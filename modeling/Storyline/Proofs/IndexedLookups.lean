import Storyline.Proofs.Evolution
import Storyline.Proofs.Positions
import Storyline.Proofs.ShownNode
import Storyline.Proofs.TeleportEntrance

/-! # Lookups and lists

Experiences, nodes and variables stand in lists and are looked up by keys that are distinct at load.
Nothing that a session does moves them, so in every state a lookup finds what the list holds, by way
of the stored positions as well as by search. Names of start nodes may repeat; the first one counts.
-/
namespace Storyline

theorem filter_of_distinct [DecidableEq κ] {key : α → κ} {l : List α} (hd : (l.map key).Nodup)
    (k : κ) : l.filter (key · == k) = (l.find? (key · == k)).toList := by
  induction l with
  | nil => rfl
  | cons a rest ih =>
    obtain ⟨ha, hrest⟩ := List.nodup_cons.mp hd
    by_cases hk : key a = k
    · subst hk
      have hnone : rest.filter (key · == key a) = [] := by
        simpa using ha
      simp [hnone]
    · simp [hk, ih hrest]

/-- A lookup by a key finds all that the list holds under it, so one element at most, and finds it
at the position that was stored for the key. -/
structure Indexed [DecidableEq κ] [Hashable κ] (l : List α) (key : α → κ)
    (lookup : κ → Option α) : Prop where
  only : ∀ k, l.filter (key · == k) = (lookup k).toList
  located : ∃ stored, positions (l.map key) = .ok stored ∧ Locates stored l lookup

theorem Project.experiences_indexed (p : Project) :
    Indexed p.experiences (·.name) fun name => (p.experience name).toOption where
  only name := by
    rw [p.experience_toOption]
    exact filter_of_distinct p.experiences_distinct name
  located := p.names_locate

theorem Project.nodes_indexed (p : Project) {e : Experience} (he : e ∈ p.experiences) :
    Indexed e.nodes (·.id) e.node? where
  only := filter_of_distinct (p.nodes_distinct e he)
  located := p.ids_locate he

theorem Project.stored_position (p : Project) {e : Experience} (he : e ∈ p.experiences) :
    ∃ stored i, positions (p.experiences.map (·.name)) = .ok stored ∧
      stored[e.name]? = some i ∧ p.experiences[i]? = some e := by
  obtain ⟨stored, hs, hl⟩ := p.names_locate
  have hfound : stored[e.name]?.map (p.experiences[·]?) =
      (p.experience e.name).toOption.map some := hl e.name
  rw [Project.experience_iff.mpr ⟨he, rfl⟩] at hfound
  obtain ⟨i, hi, hat⟩ := Option.map_eq_some_iff.mp hfound
  exact ⟨stored, i, hs, hi, hat⟩

namespace Node

@[simp] theorem fill_startName (node : Node) (t : Variables) :
    (node.fill t).startName? = node.startName? := by
  cases hb : node.body with
  | scene s => cases s <;> simp [fill, startName?, Scene.fill, hb]
  | transit work => simp [fill, startName?, hb]

end Node

namespace Experience

/-- The first start node of that name is seen as `n`, under the same name. -/
def Begins (e : Experience) (t : Variables) (name : String) (n : Node) : Prop :=
  ∃ before first after, e.nodes = before ++ first :: after ∧
    (∀ other ∈ before, other.startName? ≠ some name) ∧ first.startName? = some name ∧
    first.Shown t n ∧ n.startName? = some name

variable {e : Experience} {t : Variables} {name : String} {n : Node}

theorem begins_iff :
    e.Begins t name n ↔ ∃ first, e.start? name = some first ∧ n = first.fill t := by
  constructor
  · rintro ⟨before, first, after, hnodes, hbefore, hname, hshown, _⟩
    refine ⟨first, List.find?_eq_some_iff_append.mpr ?_, Node.shown_iff.mp hshown⟩
    exact ⟨by simpa using hname, before, after, hnodes, by simpa using hbefore⟩
  · rintro ⟨first, hfirst, rfl⟩
    obtain ⟨hname, before, after, hnodes, hbefore⟩ := List.find?_eq_some_iff_append.mp hfirst
    have hstart : first.startName? = some name := by simpa using hname
    refine ⟨before, first, after, hnodes, by simpa using hbefore, hstart, ?_, ?_⟩
    · exact Node.shown_iff.mpr rfl
    · rw [Node.fill_startName, hstart]

theorem begins_exists_iff : (∃ n, e.Begins t name n) ↔ name ∈ e.starts := by
  rw [← start_found_iff, Option.isSome_iff_exists]
  constructor
  · rintro ⟨n, hn⟩
    obtain ⟨first, hfirst, _⟩ := begins_iff.mp hn
    exact ⟨first, hfirst⟩
  · rintro ⟨first, hfirst⟩
    exact ⟨_, begins_iff.mpr ⟨first, hfirst, rfl⟩⟩

end Experience

namespace Traversal

variable {t : Traversal} {n : Node}

theorem start_ok_iff (ht : t.Placed) {name : String} :
    (t.start name).1 = .ok n ↔ t.experience.Begins t.play.store name n := by
  rw [Experience.begins_iff]
  cases hs : t.experience.start? name with
  | none => simp [start_missing hs]
  | some first => simp [start_found ht.opened hs, eq_comm]

theorem enter_ok_iff {experience name : String} :
    (t.enter experience name).1 = .ok n ↔
      ∃ e ∈ t.play.project.experiences, e.name = experience ∧ e.Begins t.play.store name n := by
  simp only [← and_assoc, ← Project.experience_iff, Experience.begins_iff]
  rcases t.enter_cases experience name with
    ⟨fault, he, hf⟩ | ⟨e, he, hs, hf⟩ | ⟨e, first, he, hs, hf⟩
  · simp [he, hf]
  · simp [he, hs, hf]
  · simp [he, hs, hf, eq_comm]

theorem start_succeeds_iff (ht : t.Placed) {name : String} :
    (∃ n, (t.start name).1 = .ok n) ↔ name ∈ t.experience.starts := by
  simp only [start_ok_iff ht, Experience.begins_exists_iff]

theorem enter_succeeds_iff {experience name : String} :
    (∃ n, (t.enter experience name).1 = .ok n) ↔
      ∃ e ∈ t.play.project.experiences, e.name = experience ∧ name ∈ e.starts := by
  constructor
  · rintro ⟨n, hn⟩
    obtain ⟨e, he, hname, hb⟩ := enter_ok_iff.mp hn
    exact ⟨e, he, hname, Experience.begins_exists_iff.mp ⟨n, hb⟩⟩
  · rintro ⟨e, he, hname, hs⟩
    obtain ⟨n, hb⟩ := Experience.begins_exists_iff.mpr hs
    exact ⟨n, enter_ok_iff.mpr ⟨e, he, hname, hb⟩⟩

end Traversal

/-- In every state of a loaded project a lookup of an experience, of a node of an experience or of a
variable finds the one element of its list with that key, or nothing exactly if there is none, and
every position stored at load is within its list. The open experience is the one at its stored
position. A start in it, and an entrance into any experience of the project, succeed exactly for the
names that its start nodes have, and answer with the first of them. -/
theorem lookups_agree_with_lists (document : Document) (limit : UInt64) (p : Project)
    (hload : Project.load document limit = .ok p) (s : Session) (hs : Reachable p s) :
    (Indexed document.experiences (·.name) fun name => (s.play.project.experience name).toOption) ∧
    (∀ e ∈ document.experiences, Indexed e.nodes (·.id) e.node?) ∧
    (∃ stored, positions (document.declared.map (·.name)) = .ok stored ∧
      Locates stored s.play.store.values fun name => (s.play.store.get name).toOption) ∧
    ∀ t, s = .opened t →
      (∃ stored i, positions (document.experiences.map (·.name)) = .ok stored ∧
        stored[t.experience.name]? = some i ∧ document.experiences[i]? = some t.experience) ∧
      (∀ name, ((∃ n, (t.start name).1 = .ok n) ↔ name ∈ t.experience.starts) ∧
        ∀ n, (t.start name).1 = .ok n → t.experience.Begins t.play.store name n) ∧
      ∀ experience name,
        ((∃ n, (t.enter experience name).1 = .ok n) ↔
          ∃ e ∈ document.experiences, e.name = experience ∧ name ∈ e.starts) ∧
        ∀ n, (t.enter experience name).1 = .ok n →
          ∃ e ∈ document.experiences, e.name = experience ∧ e.Begins t.play.store name n := by
  obtain ⟨rfl, rfl⟩ := Project.load_ok_iff.mp hload
  have hproject : s.play.project = p := hs.project
  refine ⟨?_, fun e he => p.nodes_indexed he, ?_, ?_⟩
  · rw [hproject]
    exact p.experiences_indexed
  · have hnames : s.play.store.names = p.document.declared.map (·.name) :=
      hs.names.trans p.store_names
    rw [← hnames]
    exact s.play.store.names_locate
  · rintro t rfl
    have ht : t.Placed := hs.placed t rfl
    have hexperiences : t.play.project.experiences = p.document.experiences :=
      congrArg Project.experiences hproject
    rw [← hexperiences]
    refine ⟨t.play.project.stored_position ht.opened, fun name => ?_, fun experience name => ?_⟩
    · exact ⟨Traversal.start_succeeds_iff ht, fun n => (Traversal.start_ok_iff ht).mp⟩
    · exact ⟨Traversal.enter_succeeds_iff, fun n => Traversal.enter_ok_iff.mp⟩

/-- The island has two beaches, and the pier has none. -/
theorem ferry_lookups_agree :
    Project.load ferry.document 2 = .ok ferry ∧ Reachable ferry (.opened onDock) ∧
    (¬ ∃ n, (onDock.start "Beach").1 = .ok n) ∧
    ∃ n, (onDock.enter "Island" "Beach").1 = .ok n ∧ n.id = 2 ∧
      ∃ e ∈ ferry.experiences, e.name = "Island" ∧ e.Begins onDock.play.store "Beach" n := by
  have hload : Project.load ferry.document 2 = .ok ferry := Project.load_ok_iff.mpr ⟨rfl, rfl⟩
  have hreach : Reachable ferry (.opened onDock) := Reachable.run
    (fun h => h.returns (by decide)) (.fresh (.cycle #[0])) [.openExperience "Pier", .start "Dock"]
  obtain ⟨_, _, _, hopen⟩ := lookups_agree_with_lists ferry.document 2 ferry hload _ hreach
  obtain ⟨_, hstart, henter⟩ := hopen onDock rfl
  obtain ⟨hsucceeds, hbegins⟩ := henter "Island" "Beach"
  obtain ⟨n, hn⟩ := hsucceeds.mpr ⟨island, by decide, rfl, by decide⟩
  refine ⟨hload, hreach, ?_, n, hn, ?_, hbegins n hn⟩
  · rw [(hstart "Beach").1]
    decide
  · have hid : (onDock.enter "Island" "Beach").1.map (·.id) = .ok 2 := by decide +kernel
    rw [hn] at hid
    exact Except.ok.inj hid

end Storyline

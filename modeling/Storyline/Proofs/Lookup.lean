import Mathlib.Data.List.Nodup
import Storyline.Project

/-! # Lookups

Names and ids are distinct in a loaded project, so a lookup finds an element exactly when it is one
of the list, and never another one of the same key.
-/
namespace Storyline

theorem found_iff_of_distinct [DecidableEq κ] {key : α → κ} {l : List α} (hl : (l.map key).Nodup)
    {k : κ} {a : α} : l.find? (key · == k) = some a ↔ a ∈ l ∧ key a = k := by
  constructor
  · intro h
    have hk := List.find?_some h
    exact ⟨List.mem_of_find?_eq_some h, by simpa using hk⟩
  · rintro ⟨ha, rfl⟩
    have hs : (l.find? (key · == key a)).isSome := List.find?_isSome.mpr ⟨a, ha, by simp⟩
    obtain ⟨b, hb⟩ := Option.isSome_iff_exists.mp hs
    have hk : key b = key a := by simpa using List.find?_some hb
    rw [hb, List.inj_on_of_nodup_map hl (List.mem_of_find?_eq_some hb) ha hk]

namespace Project

theorem store_names (p : Project) : p.store.names = p.document.declared.map (·.name) := by
  simp [store, Variables.names, Variables.ofEntries, Function.comp_def]

theorem experience_iff {p : Project} {name : String} {e : Experience} :
    p.experience name = .ok e ↔ e ∈ p.experiences ∧ e.name = name := by
  unfold Project.experience
  rw [← found_iff_of_distinct (l := p.experiences) p.experiences_distinct]
  cases p.experiences.find? (·.name == name) <;> simp

theorem experience_mem {p : Project} {name : String} {e : Experience}
    (h : p.experience name = .ok e) : e ∈ p.experiences := (experience_iff.mp h).1

theorem experience_error {p : Project} {name : String} {fault : Fault}
    (h : p.experience name = .error fault) : fault = .unknownExperience name := by
  unfold Project.experience at h
  split at h
  · cases h
  · cases h; rfl

end Project

namespace Experience

theorem node_iff {e : Experience} (he : (e.nodes.map (·.id)).Nodup) {id : NodeId} {node : Node} :
    e.node? id = some node ↔ node ∈ e.nodes ∧ node.id = id := found_iff_of_distinct he

theorem node_mem {e : Experience} {id : NodeId} {node : Node} (h : e.node? id = some node) :
    node ∈ e.nodes ∧ node.id = id :=
  ⟨List.mem_of_find?_eq_some h, by simpa using List.find?_some h⟩

theorem start_mem {e : Experience} {name : String} {node : Node} (h : e.start? name = some node) :
    node ∈ e.nodes ∧ node.startName? = some name :=
  ⟨List.mem_of_find?_eq_some h, by simpa using List.find?_some h⟩

theorem start_found_iff {e : Experience} {name : String} :
    (e.start? name).isSome ↔ name ∈ e.starts := by
  simp [Experience.start?, Experience.starts, List.mem_filterMap]

end Experience

theorem Node.displayable_iff {node : Node} : node.isDisplayable ↔ ∃ s, node.body = .scene s := by
  cases h : node.body <;> simp [Node.isDisplayable, h]

theorem Node.not_displayable {node : Node} {work : Transit} (h : node.body = .transit work) :
    ¬ node.isDisplayable := by
  simp [Node.isDisplayable, h]

theorem Node.start_displayable {node : Node} {name : String} (h : node.startName? = some name) :
    ∃ link, node.body = .scene (.start name link) := by
  unfold Node.startName? at h
  split at h
  · next link hb => simp_all
  · simp at h

theorem Project.start_resolves {p : Project} {e : Experience} (he : e ∈ p.experiences)
    {name : String} {node : Node} (h : e.start? name = some node) : e.node? node.id = some node :=
  (Experience.node_iff (p.nodes_distinct e he)).mpr ⟨(Experience.start_mem h).1, rfl⟩

theorem Project.start_rests {p : Project} {e : Experience} (he : e ∈ p.experiences)
    {name : String} {node : Node} (h : e.start? name = some node) :
    ∃ n, e.node? node.id = some n ∧ n.isDisplayable := by
  obtain ⟨link, hb⟩ := Node.start_displayable (Experience.start_mem h).2
  exact ⟨node, start_resolves he h, Node.displayable_iff.mpr ⟨_, hb⟩⟩

end Storyline

import Storyline.Document.Decode
import Storyline.Routing

/-! # Projects

A project is a document whose names are distinct wherever they are looked up: experiences, nodes of
one experience, and variables. A playthrough is a project with live variables and a random source.
-/
namespace Storyline

structure Project where
  document : Document
  experiences_distinct : (document.experiences.map (·.name)).Nodup
  nodes_distinct : ∀ e ∈ document.experiences, (e.nodes.map (·.id)).Nodup
  variables_distinct : (document.declared.map (·.name)).Nodup
  /-- Transit nodes that one advance may pass. -/
  stepLimit : UInt64

/-- The first repetition in a list of experiences whose names come after those already seen: a
repeated name counts before the nodes of that experience. -/
def firstClash (seen : List String) : List Experience → Option Fault
  | [] => none
  | e :: rest =>
    if e.name ∈ seen then some (.duplicateExperience e.name)
    else
      match firstRepeat [] (e.nodes.map (·.id)) with
      | some id => some (.duplicateNode id e.name)
      | none => firstClash (e.name :: seen) rest

theorem firstClash_eq_none_iff {seen : List String} {es : List Experience} :
    firstClash seen es = none ↔
      (es.map (·.name)).Nodup ∧ (∀ e ∈ es, e.name ∉ seen) ∧
        ∀ e ∈ es, (e.nodes.map (·.id)).Nodup := by
  induction es generalizing seen with
  | nil => simp [firstClash]
  | cons e rest ih =>
    unfold firstClash
    by_cases h : e.name ∈ seen
    · simp [h]
    · cases hr : firstRepeat [] (e.nodes.map (·.id)) with
      | some id =>
        have hn : ¬ (e.nodes.map (·.id)).Nodup := fun hn => by
          have : firstRepeat [] (e.nodes.map (·.id)) = none :=
            firstRepeat_eq_none_iff.mpr ⟨hn, by simp⟩
          simp [this] at hr
        simp [h, hn]
      | none =>
        have := (firstRepeat_eq_none_iff.mp hr).1
        simp only [h, if_false, ih, List.map_cons, List.nodup_cons, List.mem_cons, List.mem_map]
        grind

namespace Project

def defaultStepLimit : UInt64 := 10000

def load (document : Document) (stepLimit : UInt64) : Except Fault Project :=
  match h : firstClash [] document.experiences,
      h' : firstRepeat [] (document.declared.map (·.name)) with
  | some fault, _ => .error fault
  | none, some name => .error (.duplicateVariable name)
  | none, none => .ok {
      document, stepLimit
      experiences_distinct := (firstClash_eq_none_iff.mp h).1
      nodes_distinct := (firstClash_eq_none_iff.mp h).2.2
      variables_distinct := (firstRepeat_eq_none_iff.mp h').1 }

theorem load_ok_iff {document : Document} {stepLimit : UInt64} {p : Project} :
    load document stepLimit = .ok p ↔ p.document = document ∧ p.stepLimit = stepLimit := by
  constructor
  · intro h
    unfold load at h
    split at h
    · cases h
    · cases h
    · cases h
      exact ⟨rfl, rfl⟩
  · rintro ⟨rfl, rfl⟩
    have hclash : firstClash [] p.document.experiences = none :=
      firstClash_eq_none_iff.mpr ⟨p.experiences_distinct, by simp, p.nodes_distinct⟩
    have hrepeat : firstRepeat [] (p.document.declared.map (·.name)) = none :=
      firstRepeat_eq_none_iff.mpr ⟨p.variables_distinct, by simp⟩
    unfold load
    split
    · simp_all
    · simp_all
    · rfl

def read (text : String) (stepLimit : UInt64) : Except Fault Project :=
  match Document.read text with
  | some document => load document stepLimit
  | none => .error .malformedText

def experiences (p : Project) : List Experience := p.document.experiences

def experience (p : Project) (name : String) : Except Fault Experience :=
  match p.experiences.find? (·.name == name) with
  | some e => .ok e
  | none => .error (.unknownExperience name)

def store (p : Project) : Variables := .ofEntries p.document.declared p.variables_distinct

end Project

structure Playthrough where
  project : Project
  store : Variables
  source : RandomSource

namespace Playthrough

def new (project : Project) (source : RandomSource) : Playthrough :=
  ⟨project, project.store, source⟩

def item (p : Playthrough) (name : String) : Except Fault String :=
  match p.project.document.dataTable.find? (·.name == name) with
  | some e => .ok (p.store.substitute e.value)
  | none => .error (.unknownItem name)

end Playthrough
end Storyline

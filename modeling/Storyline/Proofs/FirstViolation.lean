import Storyline.Proofs.Lookup

/-! # The first violation

A document is loaded exactly if all its names are distinct. Otherwise the error is the first
violation there is: the experiences are looked at in their order, each with its name before its
nodes, and the variables only when no experience is at fault.
-/
namespace Storyline

def FirstRepeat (l : List α) (a : α) : Prop :=
  ∃ before after, l = before ++ a :: after ∧ before.Nodup ∧ a ∈ before

structure Sound (experiences : List Experience) : Prop where
  names : (experiences.map (·.name)).Nodup
  ids : ∀ e ∈ experiences, (e.nodes.map (·.id)).Nodup

/-- The fault of an experience that comes after others with these names. -/
inductive Experience.Clashes (earlier : List String) (e : Experience) : Fault → Prop where
  | name : e.name ∈ earlier → Clashes earlier e (.duplicateExperience e.name)
  | node {id} : e.name ∉ earlier → FirstRepeat (e.nodes.map (·.id)) id →
      Clashes earlier e (.duplicateNode id e.name)

/-- The first fault of a document: that of the first experience with one, or else the first name of
a variable that repeats an earlier one. -/
inductive FirstViolation (document : Document) : Fault → Prop where
  | experience {before e after fault} : document.experiences = before ++ e :: after →
      Sound before → e.Clashes (before.map (·.name)) fault → FirstViolation document fault
  | declared {name} : Sound document.experiences →
      FirstRepeat (document.declared.map (·.name)) name →
      FirstViolation document (.duplicateVariable name)

section Repeats

variable [DecidableEq α] {seen l : List α} {a : α}

theorem firstRepeat_some_iff : firstRepeat seen l = some a ↔
    ∃ before after, l = before ++ a :: after ∧ firstRepeat seen before = none ∧
      a ∈ before.reverse ++ seen := by
  -- What has been seen grows with the list that is left, so it stays open.
  induction l generalizing seen with
  | nil => simp [firstRepeat]
  | cons b rest ih =>
    by_cases hb : b ∈ seen
    · rw [firstRepeat, if_pos hb]
      constructor
      · rintro ⟨⟩
        exact ⟨[], rest, rfl, rfl, hb⟩
      · rintro ⟨before, after, hl, hnone, _⟩
        cases before with
        | nil => rw [(List.cons_eq_cons.mp hl).1]
        | cons c before =>
          obtain ⟨rfl, _⟩ := List.cons_eq_cons.mp hl
          rw [firstRepeat, if_pos hb] at hnone
          cases hnone
    · rw [firstRepeat, if_neg hb, ih]
      constructor
      · rintro ⟨before, after, rfl, hnone, ha⟩
        refine ⟨b :: before, after, rfl, ?_, by simpa using ha⟩
        rw [firstRepeat, if_neg hb, hnone]
      · rintro ⟨before, after, hl, hnone, ha⟩
        cases before with
        | nil =>
          obtain ⟨rfl, _⟩ := List.cons_eq_cons.mp hl
          exact absurd ha hb
        | cons c before =>
          obtain ⟨rfl, hrest⟩ := List.cons_eq_cons.mp hl
          rw [firstRepeat, if_neg hb] at hnone
          exact ⟨before, after, hrest, hnone, by simpa using ha⟩

theorem firstRepeat_iff : firstRepeat [] l = some a ↔ FirstRepeat l a := by
  rw [firstRepeat_some_iff]
  simp only [firstRepeat_eq_none_iff, List.append_nil, List.mem_reverse, List.not_mem_nil,
    not_false_eq_true, implies_true, and_true, FirstRepeat]

end Repeats

theorem FirstRepeat.not_nodup {l : List α} {a : α} (h : FirstRepeat l a) : ¬ l.Nodup := by
  obtain ⟨before, after, rfl, _, ha⟩ := h
  intro hd
  exact (List.nodup_append.mp hd).2.2 a ha a List.mem_cons_self rfl

theorem Experience.clashes_reverse {e : Experience} {earlier : List String} {fault : Fault} :
    e.Clashes earlier.reverse fault ↔ e.Clashes earlier fault := by
  constructor
  · intro h
    cases h with
    | name hname => exact .name (List.mem_reverse.mp hname)
    | node hname hid => exact .node (fun h => hname (List.mem_reverse.mpr h)) hid
  · intro h
    cases h with
    | name hname => exact .name (List.mem_reverse.mpr hname)
    | node hname hid => exact .node (fun h => hname (List.mem_reverse.mp h)) hid

section Clashes

variable {seen : List String} {es : List Experience} {e : Experience} {fault : Fault}

theorem firstClash_cons : firstClash seen (e :: es) = some fault ↔
    e.Clashes seen fault ∨
      (e.name ∉ seen ∧ (e.nodes.map (·.id)).Nodup) ∧
        firstClash (e.name :: seen) es = some fault := by
  by_cases hname : e.name ∈ seen
  · rw [firstClash, if_pos hname]
    constructor
    · rintro ⟨⟩
      exact Or.inl (.name hname)
    · rintro (hclash | ⟨⟨hnot, _⟩, _⟩)
      · cases hclash with
        | name => rfl
        | node hnot => exact absurd hname hnot
      · exact absurd hname hnot
  · rw [firstClash, if_neg hname]
    cases hid : firstRepeat [] (e.nodes.map (·.id)) with
    | some id =>
      have hrepeat := firstRepeat_iff.mp hid
      constructor
      · rintro ⟨⟩
        exact Or.inl (.node hname hrepeat)
      · rintro (hclash | ⟨⟨_, hnodup⟩, _⟩)
        · cases hclash with
          | name hseen => exact absurd hseen hname
          | node _ hother =>
            cases hid.symm.trans (firstRepeat_iff.mpr hother)
            rfl
        · exact absurd hnodup hrepeat.not_nodup
    | none =>
      have hnodup : (e.nodes.map (·.id)).Nodup := (firstRepeat_eq_none_iff.mp hid).1
      constructor
      · exact fun h => Or.inr ⟨⟨hname, hnodup⟩, h⟩
      · rintro (hclash | ⟨_, h⟩)
        · cases hclash with
          | name hseen => exact absurd hseen hname
          | node _ hother => exact absurd hnodup hother.not_nodup
        · exact h

theorem firstClash_some_iff : firstClash seen es = some fault ↔
    ∃ before e after, es = before ++ e :: after ∧ firstClash seen before = none ∧
      e.Clashes ((before.map (·.name)).reverse ++ seen) fault := by
  -- The names that have been seen stay open.
  induction es generalizing seen with
  | nil => simp [firstClash]
  | cons first rest ih =>
    rw [firstClash_cons, ih]
    constructor
    · rintro (hclash | ⟨⟨hname, hids⟩, before, e, after, rfl, hnone, hclash⟩)
      · exact ⟨[], first, rest, rfl, rfl, hclash⟩
      · refine ⟨first :: before, e, after, rfl, ?_, by simpa using hclash⟩
        rw [firstClash_eq_none_iff] at hnone ⊢
        simp only [List.map_cons, List.nodup_cons, List.mem_cons, List.mem_map] at hnone ⊢
        grind
    · rintro ⟨before, e, after, hsplit, hnone, hclash⟩
      cases before with
      | nil =>
        obtain ⟨rfl, _⟩ := List.cons_eq_cons.mp hsplit
        exact Or.inl hclash
      | cons c before =>
        obtain ⟨rfl, hrest⟩ := List.cons_eq_cons.mp hsplit
        rw [firstClash_eq_none_iff] at hnone
        simp only [List.map_cons, List.nodup_cons, List.mem_cons, List.mem_map] at hnone
        refine Or.inr ⟨by grind, before, e, after, hrest, ?_, by simpa using hclash⟩
        rw [firstClash_eq_none_iff]
        simp only [List.mem_cons]
        grind

theorem firstClash_none_iff_sound : firstClash [] es = none ↔ Sound es := by
  rw [firstClash_eq_none_iff]
  exact ⟨fun h => ⟨h.1, h.2.2⟩, fun h => ⟨h.names, fun _ _ => List.not_mem_nil, h.ids⟩⟩

theorem firstClash_iff : firstClash [] es = some fault ↔
    ∃ before e after, es = before ++ e :: after ∧ Sound before ∧
      e.Clashes (before.map (·.name)) fault := by
  rw [firstClash_some_iff]
  simp only [firstClash_none_iff_sound, List.append_nil, Experience.clashes_reverse]

end Clashes

namespace Project

variable {document : Document} {limit : UInt64}

theorem load_error_iff {fault : Fault} : load document limit = .error fault ↔
    FirstViolation document fault := by
  constructor
  · intro h
    unfold load at h
    split at h
    · next hclash =>
      cases h
      obtain ⟨before, e, after, hsplit, hsound, he⟩ := firstClash_iff.mp hclash
      exact .experience hsplit hsound he
    · next hnone hrepeat =>
      cases h
      exact .declared (firstClash_none_iff_sound.mp hnone) (firstRepeat_iff.mp hrepeat)
    · cases h
  · intro h
    cases h with
    | experience hsplit hsound he =>
      have hclash : firstClash [] document.experiences = some fault :=
        firstClash_iff.mpr ⟨_, _, _, hsplit, hsound, he⟩
      unfold load
      split
      · next hother =>
        cases hclash.symm.trans hother
        rfl
      · next hnone _ => cases hclash.symm.trans hnone
      · next hnone _ => cases hclash.symm.trans hnone
    | declared hsound hrepeat =>
      have hnone := firstClash_none_iff_sound.mpr hsound
      have hsome := firstRepeat_iff.mpr hrepeat
      unfold load
      split
      · next hclash => cases hnone.symm.trans hclash
      · next hother =>
        cases hsome.symm.trans hother
        rfl
      · next hdistinct => cases hsome.symm.trans hdistinct

theorem loads_iff : (∃ p, load document limit = .ok p) ↔
    Sound document.experiences ∧ (document.declared.map (·.name)).Nodup := by
  constructor
  · rintro ⟨p, hp⟩
    obtain ⟨rfl, _⟩ := load_ok_iff.mp hp
    exact ⟨⟨p.experiences_distinct, p.nodes_distinct⟩, p.variables_distinct⟩
  · rintro ⟨hsound, hvariables⟩
    exact ⟨⟨document, hsound.names, hsound.ids, hvariables, limit⟩, load_ok_iff.mpr ⟨rfl, rfl⟩⟩

end Project

/-- A document is loaded exactly if the names of its experiences, the ids of the nodes of each one
and the names of its variables are distinct. Otherwise the error is the first violation. A loaded
project has the experiences with their nodes, the variables and the data table of the document, in
its order. -/
theorem load_reports_first_violation (document : Document) (limit : UInt64) :
    ((∃ p, Project.load document limit = .ok p) ↔
      (document.experiences.map (·.name)).Nodup ∧
        (∀ e ∈ document.experiences, (e.nodes.map (·.id)).Nodup) ∧
        (document.declared.map (·.name)).Nodup) ∧
    (∀ fault, Project.load document limit = .error fault ↔ FirstViolation document fault) ∧
    ∀ p, Project.load document limit = .ok p →
      p.experiences = document.experiences ∧
        p.store.slots.map (fun v => ⟨v.name, v.current⟩) = document.declared ∧
        p.document.dataTable = document.dataTable := by
  refine ⟨?_, fun fault => Project.load_error_iff, fun p hp => ?_⟩
  · rw [Project.loads_iff]
    exact ⟨fun h => ⟨h.1.names, h.1.ids, h.2⟩, fun h => ⟨⟨h.1, h.2.1⟩, h.2.2⟩⟩
  · obtain ⟨rfl, _⟩ := Project.load_ok_iff.mp hp
    refine ⟨rfl, ?_, rfl⟩
    simp [Project.store, Variables.ofEntries, Function.comp_def]

/-- The cellar comes before the second attic, and its repeated node before the variables. -/
def lumber : Document where
  experiences := [⟨"Attic", [⟨1, [], .scene .ending⟩]⟩,
    ⟨"Cellar", [⟨1, [], .scene .ending⟩, ⟨2, [], .scene .ending⟩, ⟨2, [], .scene .ending⟩,
      ⟨1, [], .scene .ending⟩]⟩,
    ⟨"Attic", [⟨5, [], .scene .ending⟩, ⟨5, [], .scene .ending⟩]⟩]
  declared := [⟨"gold", "7"⟩, ⟨"gold", "8"⟩]
  dataTable := [⟨"motto", "a"⟩, ⟨"motto", "b"⟩]

theorem lumber_reports_first_violation :
    Project.load lumber 4 = .error (.duplicateNode 2 "Cellar") ∧
    Project.load { lumber with experiences := lumber.experiences.take 1 } 4 =
      .error (.duplicateVariable "gold") ∧
    ∃ p, Project.load { lumber with experiences := lumber.experiences.take 1, declared := [] } 4 =
      .ok p ∧ p.experiences = lumber.experiences.take 1 ∧
      p.document.dataTable = lumber.dataTable := by
  have hnode : FirstViolation lumber (.duplicateNode 2 "Cellar") :=
    @FirstViolation.experience lumber (lumber.experiences.take 1) _ _ _ rfl ⟨by decide, by decide⟩
      (.node (by decide) ⟨[1, 2], [1], rfl, by decide, by decide⟩)
  have hvariable : FirstViolation { lumber with experiences := lumber.experiences.take 1 }
      (.duplicateVariable "gold") :=
    .declared ⟨by decide, by decide⟩ ⟨["gold"], [], rfl, by decide, by decide⟩
  obtain ⟨hloads, _, hcontent⟩ := load_reports_first_violation
    { lumber with experiences := lumber.experiences.take 1, declared := [] } 4
  obtain ⟨p, hp⟩ := hloads.mpr ⟨by decide, by decide, by decide⟩
  exact ⟨((load_reports_first_violation _ 4).2.1 _).mpr hnode,
    ((load_reports_first_violation _ 4).2.1 _).mpr hvariable, p, hp, (hcontent p hp).1,
    (hcontent p hp).2.2⟩

end Storyline

import Storyline.Proofs.Lookup

/-! # Stored positions

The keys of a list are stored once, each with its position. While the list keeps its keys in their
order, a lookup may go through the stored positions: it finds what a search of the list finds, and
never reads out of the bounds of the list.
-/
namespace Storyline

section Store

variable {κ : Type} [DecidableEq κ] [Hashable κ]

/-- Stores the positions of keys, the first of them at `next`. A key that is stored already is
answered instead. -/
def storePositions (stored : Std.HashMap κ Nat) (next : Nat) :
    List κ → Except κ (Std.HashMap κ Nat)
  | [] => .ok stored
  | k :: rest =>
    match stored.containsThenInsert k next with
    | (true, _) => .error k
    | (false, stored) => storePositions stored (next + 1) rest

def positions (keys : List κ) : Except κ (Std.HashMap κ Nat) := storePositions ∅ 0 keys

/-- What is stored are the keys of the list, each with its position. -/
def Indexes (stored : Std.HashMap κ Nat) (keys : List κ) : Prop :=
  ∀ (k : κ) (i : Nat), stored[k]? = some i ↔ keys[i]? = some k

theorem storePositions_cons (stored : Std.HashMap κ Nat) (next : Nat) (k : κ) (rest : List κ) :
    storePositions stored next (k :: rest) =
      if k ∈ stored then .error k else storePositions (stored.insert k next) (next + 1) rest := by
  have hpair : stored.containsThenInsert k next = (stored.contains k, stored.insert k next) :=
    Prod.ext Std.HashMap.containsThenInsert_fst Std.HashMap.containsThenInsert_snd
  rw [storePositions, hpair]
  cases hk : stored.contains k with
  | true => rw [if_pos (Std.HashMap.mem_iff_contains.mpr hk)]
  | false => rw [if_neg (by simp [Std.HashMap.mem_iff_contains, hk])]

namespace Indexes

variable {stored : Std.HashMap κ Nat} {keys : List κ}

theorem mem_iff (h : Indexes stored keys) {k : κ} : k ∈ stored ↔ k ∈ keys := by
  rw [Std.HashMap.mem_iff_isSome_getElem?, Option.isSome_iff_exists, List.mem_iff_getElem?]
  exact exists_congr fun i => h k i

theorem insert (h : Indexes stored keys) {k : κ} (hk : k ∉ stored) :
    Indexes (stored.insert k keys.length) (keys ++ [k]) := by
  intro l i
  rw [Std.HashMap.getElem?_insert]
  rcases Nat.lt_trichotomy i keys.length with hi | rfl | hi
  · rw [List.getElem?_append_left hi]
    by_cases hkl : k = l
    · subst hkl
      have habsent : keys[i]? ≠ some k := fun hi => hk (h.mem_iff.mpr (List.mem_of_getElem? hi))
      simp [habsent, Nat.ne_of_gt hi]
    · simpa [hkl] using h l i
  · have hend : stored[l]? ≠ some keys.length := by simp [h l]
    by_cases hkl : k = l <;> simp [hkl, hend]
  · have hnone : (keys ++ [k])[i]? = none := List.getElem?_eq_none (by simp; omega)
    have hout : stored[l]? ≠ some i := by simp [h l, List.getElem?_eq_none (Nat.le_of_lt hi)]
    rw [hnone]
    by_cases hkl : k = l <;> simp [hkl, hout, Nat.ne_of_lt hi]

theorem store (h : Indexes stored keys) {rest : List κ} (hd : (keys ++ rest).Nodup) :
    ∃ all, storePositions stored keys.length rest = .ok all ∧ Indexes all (keys ++ rest) := by
  -- The keys already stored stay open.
  induction rest generalizing stored keys with
  | nil => exact ⟨stored, rfl, by simpa using h⟩
  | cons k rest ih =>
    have hk : k ∉ stored := by
      rw [h.mem_iff]
      exact fun hm => (List.nodup_append.mp hd).2.2 k hm k List.mem_cons_self rfl
    rw [storePositions_cons, if_neg hk]
    simpa using ih (h.insert hk) (by simpa using hd)

end Indexes

theorem positions_indexes {keys : List κ} (hd : keys.Nodup) :
    ∃ stored, positions keys = .ok stored ∧ Indexes stored keys := by
  have hempty : Indexes (∅ : Std.HashMap κ Nat) [] := by
    simp [Indexes]
  exact hempty.store hd

/-- A lookup answers what stands at the position that is stored for a key, and every stored position
is within the bounds of the list. -/
def Locates (stored : Std.HashMap κ Nat) (l : List α) (lookup : κ → Option α) : Prop :=
  ∀ k, stored[k]?.map (l[·]?) = (lookup k).map some

theorem Indexes.locates {stored : Std.HashMap κ Nat} {key : α → κ} {l : List α}
    (h : Indexes stored (l.map key)) (hd : (l.map key).Nodup) :
    Locates stored l fun k => l.find? (key · == k) := by
  intro k
  cases hk : stored[k]? with
  | none =>
    have habsent : ∀ a ∈ l, key a ≠ k := by
      rintro a ha rfl
      obtain ⟨i, hi⟩ := List.mem_iff_getElem?.mp (List.mem_map_of_mem (f := key) ha)
      simp [(h _ i).mpr hi] at hk
    have hfind : l.find? (key · == k) = none := by simpa using habsent
    simp [hfind]
  | some i =>
    have hi := (h k i).mp hk
    rw [List.getElem?_map, Option.map_eq_some_iff] at hi
    obtain ⟨a, ha, rfl⟩ := hi
    have hfind := (found_iff_of_distinct hd).mpr ⟨List.mem_of_getElem? ha, rfl⟩
    simp [ha, hfind]

theorem Locates.map {stored : Std.HashMap κ Nat} {l : List α} {lookup : κ → Option α}
    (h : Locates stored l lookup) (f : α → β) :
    Locates stored (l.map f) fun k => (lookup k).map f := by
  intro k
  have hk := congrArg (Option.map (Option.map f)) (h k)
  simpa [Function.comp_def] using hk

end Store

theorem Variables.get_toOption (t : Variables) (name : String) :
    (t.get name).toOption = (t.slots.find? (·.name == name)).map (·.current) := by
  unfold Variables.get
  cases t.slots.find? (·.name == name) <;> rfl

theorem Variables.names_locate (t : Variables) : ∃ stored, positions t.names = .ok stored ∧
    Locates stored t.values fun name => (t.get name).toOption := by
  obtain ⟨stored, hs, hi⟩ := positions_indexes t.distinct
  simp only [t.get_toOption]
  exact ⟨stored, hs, (hi.locates t.distinct).map (·.current)⟩

theorem Project.experience_toOption (p : Project) (name : String) :
    (p.experience name).toOption = p.experiences.find? (·.name == name) := by
  unfold Project.experience
  cases p.experiences.find? (·.name == name) <;> rfl

theorem Project.names_locate (p : Project) :
    ∃ stored, positions (p.experiences.map (·.name)) = .ok stored ∧
      Locates stored p.experiences fun name => (p.experience name).toOption := by
  obtain ⟨stored, hs, hi⟩ := positions_indexes p.experiences_distinct
  simp only [p.experience_toOption]
  exact ⟨stored, hs, hi.locates p.experiences_distinct⟩

theorem Project.ids_locate (p : Project) {e : Experience} (he : e ∈ p.experiences) :
    ∃ stored, positions (e.nodes.map (·.id)) = .ok stored ∧ Locates stored e.nodes e.node? := by
  obtain ⟨stored, hs, hi⟩ := positions_indexes (p.nodes_distinct e he)
  exact ⟨stored, hs, hi.locates (p.nodes_distinct e he)⟩

end Storyline

import Storyline.Variables

/-! # Writes to the variables

A write gives values only: the names, their order and the loaded values stay as they were.
-/
namespace Storyline.Variables

@[simp] theorem update_names (t : Variables) (value : Variable → String) :
    (t.update value).names = t.names := by
  simp [names, update, Function.comp_def]

@[simp] theorem update_reset (t : Variables) (value : Variable → String) :
    (t.update value).reset = t.reset := by
  simp [reset, update, Function.comp_def]

section Set

variable {t u : Variables} {name target value : String}

theorem set_ok (h : t.set name value = .ok u) :
    name ∈ t.names ∧ u = t.update fun v => if v.name = name then value else v.current := by
  unfold set at h
  split at h
  · next hknown =>
    cases h
    exact ⟨hknown, rfl⟩
  · cases h

theorem set_update (h : t.set name value = .ok u) : ∃ values, u = t.update values :=
  ⟨_, (set_ok h).2⟩

theorem get_update (t : Variables) (value : Variable → String) (name : String) :
    (t.update value).get name =
      match t.slots.find? (·.name == name) with
      | some v => .ok (value v)
      | none => .error (.unknownVariable name) := by
  simp only [get, update, List.find?_map, Function.comp_def]
  cases t.slots.find? (·.name == name) <;> rfl

theorem get_of_set (h : t.set name value = .ok u) : u.get name = .ok value := by
  obtain ⟨hknown, rfl⟩ := set_ok h
  rw [get_update]
  cases hfound : t.slots.find? (·.name == name) with
  | none =>
    obtain ⟨v, hv, hname⟩ := List.mem_map.mp hknown
    exact absurd hname (by simpa using List.find?_eq_none.mp hfound v hv)
  | some v =>
    have hname : v.name = name := by simpa using List.find?_some hfound
    dsimp only
    rw [if_pos hname]

theorem get_of_set_other (h : t.set target value = .ok u) (hne : target ≠ name) :
    u.get name = t.get name := by
  obtain ⟨-, rfl⟩ := set_ok h
  rw [get_update, get]
  cases hfound : t.slots.find? (·.name == name) with
  | none => rfl
  | some v =>
    have hname : v.name = name := by simpa using List.find?_some hfound
    have hother : v.name ≠ target := fun heq => hne (heq.symm.trans hname)
    dsimp only
    rw [if_neg hother]

end Set

theorem assign_set {t u : Variables} {a : Assignment} (h : t.assign a = .ok u) :
    ∃ value, t.set a.target value = .ok u := by
  unfold assign at h
  cases hg : t.get a.target with
  | error fault => rw [hg] at h; cases h
  | ok current =>
    cases ho : Operation.ofSymbol? a.symbol with
    | none => rw [hg, ho] at h; cases h
    | some o =>
      cases ha : o.apply current a.literal (t.substitute a.literal) with
      | error fault =>
        rw [hg, ho] at h
        simp only [bind, Except.bind, ha] at h
        cases h
      | ok value =>
        rw [hg, ho] at h
        simp only [bind, Except.bind, ha] at h
        exact ⟨value, h⟩

inductive Written (t : Variables) : Variables → Prop where
  | set {name value u} : t.set name value = .ok u → Written t u
  | assign {a u} : t.assign a = .ok u → Written t u
  | reset : Written t t.reset

theorem Written.update {t u : Variables} (h : t.Written u) : ∃ values, u = t.update values := by
  cases h with
  | set h => exact set_update h
  | assign h =>
    obtain ⟨value, hs⟩ := assign_set h
    exact set_update hs
  | reset => exact ⟨_, rfl⟩

end Storyline.Variables

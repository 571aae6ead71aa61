import Storyline.Proofs.Lookup

/-! # Operators and numbers

An operation stores the literal as it is written, or the number that it makes of two numbers, or the
two texts one behind the other. Operators that need numbers are rejected exactly where one of the
two texts is none.
-/
namespace Storyline

open Number (Binary64)

def Rejects (result : Except Fault α) (symbol reason : String) : Prop :=
  ∃ cause, result = .error (.invalidOperator symbol cause) ∧ cause.reason = reason

theorem OperatorFault.reason_injective {a b : OperatorFault} (h : a.reason = b.reason) : a = b := by
  revert h
  cases a <;> cases b <;> decide

theorem rejects_iff {result : Except Fault α} {symbol : String} (cause : OperatorFault) :
    Rejects result symbol cause.reason ↔ result = .error (.invalidOperator symbol cause) := by
  constructor
  · rintro ⟨other, h, hreason⟩
    rwa [OperatorFault.reason_injective hreason] at h
  · exact fun h => ⟨cause, h, rfl⟩

def LacksNumber (value literal : String) : Prop :=
  Binary64.read value = none ∨ Binary64.read literal = none

instance (value literal : String) : Decidable (LacksNumber value literal) :=
  inferInstanceAs (Decidable (_ ∨ _))

theorem numbers_or_lacks (value literal : String) :
    (∃ x y, Binary64.read value = some x ∧ Binary64.read literal = some y) ∨
      LacksNumber value literal := by
  cases hx : Binary64.read value with
  | none => exact Or.inr (Or.inl hx)
  | some x =>
    cases hy : Binary64.read literal with
    | none => exact Or.inr (Or.inr hy)
    | some y => exact Or.inl ⟨x, y, rfl, rfl⟩

theorem LacksNumber.not_both {value literal : String} (h : LacksNumber value literal)
    {x y : Binary64} (hx : Binary64.read value = some x) :
    Binary64.read literal ≠ some y := by
  intro hy
  rcases h with hnone | hnone
  · cases hx.symm.trans hnone
  · cases hy.symm.trans hnone

namespace Operation

variable {o : Operation} {current written substituted value : String}

theorem apply_numbers {x y : Binary64} (hx : Binary64.read current = some x)
    (hy : Binary64.read substituted = some y) :
    o.apply current written substituted =
      .ok (((o.arithmetic? x y).map Binary64.write).getD written) := by
  simp only [apply, hx, hy]

theorem apply_text (h : LacksNumber current substituted) :
    o.apply current written substituted =
      match o with
      | .set => .ok written
      | .add => .ok (current ++ written)
      | o => .error (.invalidOperator o.symbol .notForText) := by
  unfold apply
  split
  · next hx hy => exact absurd hy (h.not_both hx)
  · rfl

theorem apply_error_iff {fault : Fault} :
    o.apply current written substituted = .error fault ↔
      o.appliesToText = false ∧ LacksNumber current substituted ∧
        fault = .invalidOperator o.symbol .notForText := by
  rcases numbers_or_lacks current substituted with ⟨x, y, hx, hy⟩ | htext
  · rw [apply_numbers hx hy]
    exact ⟨nofun, fun h => absurd hy (h.2.1.not_both hx)⟩
  · rw [apply_text htext]
    cases o with
    | set | add => exact ⟨nofun, nofun⟩
    | subtract | multiply | divide => simp [appliesToText, htext, eq_comm]

theorem apply_cases (o : Operation) (current written substituted : String) :
    (∃ value, o.apply current written substituted = .ok value) ∨
      o.apply current written substituted = .error (.invalidOperator o.symbol .notForText) := by
  cases h : o.apply current written substituted with
  | ok value => exact Or.inl ⟨value, rfl⟩
  | error fault =>
    obtain ⟨_, _, rfl⟩ := apply_error_iff.mp h
    exact Or.inr rfl

end Operation

namespace Relation

variable {r : Relation} {value literal : String}

theorem numeric_numbers {x y : Binary64} (hx : Binary64.read value = some x)
    (hy : Binary64.read literal = some y) (test : Binary64 → Binary64 → Bool) :
    holds.numeric r value literal test = .ok (test x y) := by
  simp only [holds.numeric, hx, hy]

theorem numeric_text (h : LacksNumber value literal) (test : Binary64 → Binary64 → Bool) :
    holds.numeric r value literal test = .error (.invalidOperator r.symbol .needsNumbers) := by
  unfold holds.numeric
  split
  · next hx hy => exact absurd hy (h.not_both hx)
  · rfl

theorem holds_text (hr : r.isNumeric = true) (h : LacksNumber value literal) :
    r.holds value literal = .error (.invalidOperator r.symbol .needsNumbers) := by
  cases r with
  | equal | notEqual | contains | notContains | within | notWithin => cases hr
  | less | lessOrEqual | greater | greaterOrEqual => exact numeric_text h _

theorem holds_error_iff {fault : Fault} :
    r.holds value literal = .error fault ↔
      r.isNumeric = true ∧ LacksNumber value literal ∧
        fault = .invalidOperator r.symbol .needsNumbers := by
  constructor
  · intro h
    cases r with
    | equal | notEqual | contains | notContains | within | notWithin => cases h
    | less | lessOrEqual | greater | greaterOrEqual =>
      rcases numbers_or_lacks value literal with ⟨x, y, hx, hy⟩ | htext
      · cases (numeric_numbers hx hy _).symm.trans h
      · cases (numeric_text htext _).symm.trans h
        exact ⟨rfl, htext, rfl⟩
  · rintro ⟨hr, htext, rfl⟩
    exact holds_text hr htext

theorem holds_cases (r : Relation) (value literal : String) :
    (∃ b, r.holds value literal = .ok b) ∨
      r.holds value literal = .error (.invalidOperator r.symbol .needsNumbers) := by
  cases h : r.holds value literal with
  | ok b => exact Or.inl ⟨b, rfl⟩
  | error fault =>
    obtain ⟨_, _, rfl⟩ := holds_error_iff.mp h
    exact Or.inr rfl

end Relation

namespace Variables

variable {t : Variables} {v : Variable}

theorem get_of_mem (hv : v ∈ t.slots) : t.get v.name = .ok v.current := by
  have hfind := (found_iff_of_distinct t.distinct).mpr ⟨hv, rfl⟩
  simp only [get, hfind]

theorem assign_recognised {a : Assignment} (hv : v ∈ t.slots) (hname : v.name = a.target)
    {o : Operation} (ho : o.symbol = a.symbol) :
    t.assign a = (o.apply v.current a.literal (t.substitute a.literal)).bind (t.set a.target) := by
  have hsome : Operation.ofSymbol? a.symbol = some o := ho ▸ Operation.ofSymbol?_symbol o
  rw [assign, ← hname, get_of_mem hv, hsome]
  rfl

theorem compare_recognised {c : Comparison} (hv : v ∈ t.slots) (hname : v.name = c.subject)
    {r : Relation} (hr : r.symbol = c.symbol) :
    t.compare c = r.holds v.current (t.substitute c.literal) := by
  have hsome : Relation.ofSymbol? c.symbol = some r := hr ▸ Relation.ofSymbol?_symbol r
  rw [compare, ← hname, get_of_mem hv, hsome]
  rfl

end Variables
end Storyline

import Storyline.Proofs.AssignmentLaws
import Storyline.Proofs.BitPatterns
import Storyline.Proofs.NumeralRoundTrip

/-! # Numbers in the variables

A variable keeps text only, yet no number is lost in it: what an arithmetic operation makes is read
back as exactly that double. So a row of writes makes of the number of a variable what it would
make of a double that is never written as text, and the variable does not cease to be a number.
-/
namespace Storyline

open Number (Binary64)

namespace Operation

theorem arithmetic?_some {o : Operation} (h : o ≠ .set) (x y : Binary64) :
    ∃ z, o.arithmetic? x y = some z := by
  cases o with
  | set => exact absurd rfl h
  | add | subtract | multiply | divide => exact ⟨_, rfl⟩

theorem arithmetic_symbol {symbol : String} (h : symbol ∈ ["+", "-", "×", "÷"]) :
    ∃ o : Operation, o.symbol = symbol ∧ o ≠ .set := by
  simp only [List.mem_cons, List.not_mem_nil, or_false] at h
  rcases h with rfl | rfl | rfl | rfl
  · exact ⟨.add, rfl, nofun⟩
  · exact ⟨.subtract, rfl, nofun⟩
  · exact ⟨.multiply, rfl, nofun⟩
  · exact ⟨.divide, rfl, nofun⟩

end Operation

namespace Variables

def number? (t : Variables) (name : String) : Option Binary64 :=
  (t.get name).toOption.bind Binary64.read

/-- The write leaves the variable alone, or calculates with a literal that is a number once the
names in it are replaced. -/
def Calculates (t : Variables) (name : String) : Write → Prop
  | .set target _ => target ≠ name
  | .assign a => a.target = name →
    a.symbol ∈ ["+", "-", "×", "÷"] ∧ (Binary64.read (t.substitute a.literal)).isSome
  | .reset => False

instance (t : Variables) (name : String) (w : Write) : Decidable (t.Calculates name w) :=
  match w with
  | .set target _ => inferInstanceAs (Decidable (target ≠ name))
  | .assign a => inferInstanceAs (Decidable (a.target = name →
    a.symbol ∈ ["+", "-", "×", "÷"] ∧ (Binary64.read (t.substitute a.literal)).isSome))
  | .reset => inferInstanceAs (Decidable False)

def Calculating (t : Variables) (name : String) : List Write → Prop
  | [] => True
  | w :: rest => t.Calculates name w ∧ (t.perform w).Calculating name rest

instance decideCalculating (t : Variables) (name : String) :
    (writes : List Write) → Decidable (t.Calculating name writes)
  | [] => inferInstanceAs (Decidable True)
  | w :: rest =>
    haveI := decideCalculating (t.perform w) name rest
    inferInstanceAs (Decidable (t.Calculates name w ∧ (t.perform w).Calculating name rest))

/-- What a write makes of the number of a variable, if that is kept as a double. -/
def calculated (t : Variables) (name : String) (x : Binary64) : Write → Option Binary64
  | .set target _ => if target = name then none else some x
  | .assign a =>
    if a.target = name then do
      (← Operation.ofSymbol? a.symbol).arithmetic? x (← Binary64.read (t.substitute a.literal))
    else some x
  | .reset => none

def tally (t : Variables) (name : String) (x : Binary64) : List Write → Option Binary64
  | [] => some x
  | w :: rest => (t.calculated name x w).bind fun y => (t.perform w).tally name y rest

variable {t u : Variables} {name target value : String}

theorem exists_of_number {x : Binary64} (h : t.number? name = some x) :
    ∃ v ∈ t.slots, v.name = name ∧ Binary64.read v.current = some x := by
  unfold number? get at h
  cases hfound : t.slots.find? (·.name == name) with
  | none => simp [hfound, Except.toOption] at h
  | some v =>
    rw [hfound] at h
    exact ⟨v, List.mem_of_find?_eq_some hfound, by simpa using List.find?_some hfound, h⟩

theorem number_of_get (h : t.get name = .ok value) : t.number? name = Binary64.read value := by
  rw [number?, h]
  rfl

theorem number_of_get_eq (h : u.get name = t.get name) : u.number? name = t.number? name := by
  rw [number?, h, number?]

theorem assign_calculates {a : Assignment} {o : Operation} {x y z : Binary64}
    (hx : t.number? a.target = some x) (ho : o.symbol = a.symbol)
    (hy : Binary64.read (t.substitute a.literal) = some y) (hz : o.arithmetic? x y = some z) :
    ∃ u, t.assign a = .ok u ∧ u.number? a.target = some z := by
  obtain ⟨v, hv, hname, hread⟩ := exists_of_number hx
  have hset := set_known (target_known hv hname) z.write
  refine ⟨_, ?_, (number_of_get (get_of_set hset)).trans z.read_write⟩
  rw [assign_recognised hv hname ho, Operation.apply_numbers hread hy, hz]
  exact hset

theorem attempt_of_ok {a : Assignment} (h : t.assign a = .ok u) : t.attempt a = u := by
  simp only [attempt, h]

theorem get_attempt_other {a : Assignment} (hne : a.target ≠ name) :
    (t.attempt a).get name = t.get name := by
  cases h : t.assign a with
  | error fault => rw [attempt_failed h]
  | ok u =>
    obtain ⟨value, hset⟩ := assign_set h
    rw [attempt_of_ok h, get_of_set_other hset hne]

section Row

variable {w : Write} {writes : List Write} {x y z : Binary64}

theorem number_perform (hx : t.number? name = some x) (hy : t.calculated name x w = some y) :
    (t.perform w).number? name = some y := by
  cases w with
  | reset => cases hy
  | set target value =>
    have hne : target ≠ name := by
      rintro rfl
      simp [calculated] at hy
    have hkept : x = y := by simpa [calculated, hne] using hy
    rw [← hkept, ← hx]
    cases hset : t.set target value with
    | error fault => simp only [perform, hset]
    | ok u =>
      simp only [perform, hset]
      exact number_of_get_eq (get_of_set_other hset hne)
  | assign a =>
    by_cases hname : a.target = name
    · subst hname
      simp only [calculated, if_true, Option.bind_eq_bind, Option.bind_eq_some_iff] at hy
      obtain ⟨o, hsymbol, literal, hliteral, hmade⟩ := hy
      have ho : o.symbol = a.symbol := by simpa using List.find?_some hsymbol
      obtain ⟨u, hassign, hnumber⟩ := assign_calculates hx ho hliteral hmade
      rw [perform, attempt_of_ok hassign, hnumber]
    · have hkept : x = y := by simpa [calculated, hname] using hy
      rw [← hkept, ← hx]
      exact number_of_get_eq (get_attempt_other hname)

theorem number_run (hx : t.number? name = some x) (hz : t.tally name x writes = some z) :
    (t.run writes).number? name = some z := by
  induction writes generalizing t x with
  | nil => rwa [← Option.some.inj hz]
  | cons w rest ih =>
    obtain ⟨y, hy, hrest⟩ := Option.bind_eq_some_iff.mp hz
    exact ih (number_perform hx hy) hrest

theorem Calculates.calculated (h : t.Calculates name w) (x : Binary64) :
    ∃ y, t.calculated name x w = some y := by
  cases w with
  | reset => exact h.elim
  | set target value => exact ⟨x, if_neg h⟩
  | assign a =>
    by_cases hname : a.target = name
    · obtain ⟨hsymbol, hliteral⟩ := h hname
      obtain ⟨o, ho, hset⟩ := Operation.arithmetic_symbol hsymbol
      obtain ⟨y, hy⟩ := Option.isSome_iff_exists.mp hliteral
      obtain ⟨z, hz⟩ := Operation.arithmetic?_some hset x y
      refine ⟨z, ?_⟩
      rw [Variables.calculated, if_pos hname, ← ho, Operation.ofSymbol?_symbol, hy]
      exact hz
    · exact ⟨x, if_neg hname⟩

theorem Calculating.tally (h : t.Calculating name writes) (x : Binary64) :
    ∃ z, t.tally name x writes = some z := by
  induction writes generalizing t x with
  | nil => exact ⟨x, rfl⟩
  | cons w rest ih =>
    obtain ⟨y, hy⟩ := h.1.calculated x
    obtain ⟨z, hz⟩ := ih h.2 y
    exact ⟨z, by rw [Variables.tally, hy]; exact hz⟩

end Row
end Variables

/-- Every double is read back from the text that it is stored as: a pattern of 64 bits comes back
bit for bit, and one that stands for NaN as NaN. So what an assignment with `+`, `-`, `×` or `÷`
makes of two numbers is what its variable then holds; and whatever writes come about, as long as
those to the variable are such assignments, it holds a number, the same as if it were kept as a
double. -/
theorem stored_numbers_read_back :
    (∀ w : UInt64, ∃ x, Binary64.read (Binary64.ofBits w).write = some x ∧
      if Binary64.exponentOf w = 2047 ∧ Binary64.fractionOf w ≠ 0 then x = .nan
      else x.bits? = some w) ∧
    (∀ (t : Variables) (a : Assignment) (o : Operation) x y z,
      t.number? a.target = some x → o.symbol = a.symbol →
      Binary64.read (t.substitute a.literal) = some y → o.arithmetic? x y = some z →
      ∃ u, t.assign a = .ok u ∧ u.number? a.target = some z) ∧
    ∀ (t : Variables) name x writes, t.number? name = some x → t.Calculating name writes →
      ∃ z, t.tally name x writes = some z ∧ (t.run writes).number? name = some z := by
  refine ⟨fun w => ⟨_, Binary64.read_write _, ?_⟩,
    fun t a o x y z hx ho hy hz => Variables.assign_calculates hx ho hy hz,
    fun t name x writes hx hwrites => ?_⟩
  · split
    · next hnan => exact Binary64.ofBits_eq_nan_iff.mpr hnan
    · next hnumber => exact Binary64.bits?_ofBits (mt Binary64.ofBits_eq_nan_iff.mp hnumber)
  · obtain ⟨z, hz⟩ := hwrites.tally x
    exact ⟨z, hz, Variables.number_run hx hz⟩

/-- The gold is divided by the negative zero, and then taken from itself. -/
def speculation : List Variables.Write :=
  [.assign ⟨"gold", "×", "step"⟩, .set "title" "gold", .assign ⟨"gold", "÷", "-0"⟩,
    .assign ⟨"gold", "-", "gold"⟩]

theorem satchel_reads_back :
    (∃ x, Binary64.read (Binary64.ofBits 1).write = some x ∧ x.bits? = some 1) ∧
    (∃ u, satchel.assign ⟨"gold", "×", "step"⟩ = .ok u ∧
      u.number? "gold" = some (.ofNat 25)) ∧
    (satchel.run (speculation.take 3)).number? "gold" = some (.infinite true) ∧
    (satchel.run speculation).number? "gold" = some .nan := by
  obtain ⟨hpatterns, hassign, hrun⟩ := stored_numbers_read_back
  have hgold : satchel.number? "gold" = some (.ofNat 10) := by decide +kernel
  have hstep : Binary64.read (satchel.substitute "step") = some (.ofDecimal false 25 (-1)) := by
    decide +kernel
  have hproduct : Operation.arithmetic? .multiply (.ofNat 10) (.ofDecimal false 25 (-1)) =
      some (.ofNat 25) := by decide +kernel
  have hbought := hassign satchel ⟨"gold", "×", "step"⟩ .multiply _ _ _ hgold rfl hstep hproduct
  obtain ⟨x, hread, hbits⟩ := hpatterns 1
  have hnumber : ¬ (Binary64.exponentOf 1 = 2047 ∧ Binary64.fractionOf 1 ≠ 0) := by decide +kernel
  rw [if_neg hnumber] at hbits
  obtain ⟨y, hy, hthird⟩ := hrun satchel "gold" (.ofNat 10) (speculation.take 3) hgold
    (by decide +kernel)
  obtain ⟨z, hz, hlast⟩ := hrun satchel "gold" (.ofNat 10) speculation hgold (by decide +kernel)
  have hinfinite : satchel.tally "gold" (.ofNat 10) (speculation.take 3) =
      some (.infinite true) := by decide +kernel
  have hnan : satchel.tally "gold" (.ofNat 10) speculation = some .nan := by decide +kernel
  refine ⟨⟨x, hread, hbits⟩, hbought, ?_, ?_⟩
  · rw [hthird, ← hy, hinfinite]
  · rw [hlast, ← hz, hnan]

end Storyline

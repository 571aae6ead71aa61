import Storyline.Proofs.Occurrence
import Storyline.Proofs.OperatorFaults
import Storyline.Proofs.Places

/-! # Laws of the comparisons

Every comparison has its opposite. Those of texts always have an answer; those of numbers are
rejected where one of the two texts is no number, and otherwise are an order, outside of which NaN
stands: nothing holds of it.
-/
namespace Storyline

open Number (Binary64)

namespace Number.Binary64

variable {x y : Binary64}

theorem exists_place (h : x ≠ .nan) : ∃ n, x.place = some n := by
  cases x with
  | nan => exact absurd rfl h
  | infinite | finite => exact ⟨_, rfl⟩

theorem le_eq_not_lt (hx : x ≠ .nan) (hy : y ≠ .nan) : y.le x = !x.lt y := by
  obtain ⟨a, ha⟩ := exists_place hx
  obtain ⟨b, hb⟩ := exists_place hy
  simp only [le, lt, ha, hb]
  rw [← decide_not, decide_eq_decide]
  exact Int.not_lt.symm

theorem nan_unordered (h : x = .nan ∨ y = .nan) : x.lt y = false ∧ x.le y = false := by
  rcases h with rfl | rfl
  · exact ⟨rfl, rfl⟩
  · cases x <;> exact ⟨rfl, rfl⟩

end Number.Binary64

def Contrary (first second : Except Fault Bool) : Prop :=
  ∃ truth, first = .ok truth ∧ second = .ok (!truth)

/-- Laws of the answers to the comparisons of a value with a literal, asked by their symbols. -/
structure ComparisonLaws (answer : String → Except Fault Bool) (value literal : String) : Prop where
  equal : Contrary (answer "=") (answer "≠")
  contains : Contrary (answer "⊇") (answer "⊉")
  within : Contrary (answer "∈") (answer "∉")
  rejected : ∀ r : Relation, Rejects (answer r.symbol) r.symbol "requires numeric operands" ↔
    r.isNumeric = true ∧ LacksNumber value literal
  ordered : ∀ x y, Binary64.read value = some x → Binary64.read literal = some y →
    x ≠ .nan → y ≠ .nan →
      Contrary (answer "<") (answer "≥") ∧ Contrary (answer ">") (answer "≤") ∧
        (answer "<" = .ok true → answer "≤" = .ok true) ∧
        (answer ">" = .ok true → answer "≥" = .ok true)
  unordered : ∀ x y, Binary64.read value = some x → Binary64.read literal = some y →
    x = .nan ∨ y = .nan → ∀ symbol ∈ ["<", "≤", ">", "≥"], answer symbol = .ok false
  same : literal = value → ∀ symbol ∈ ["=", "⊇", "∈"], answer symbol = .ok true
  equal_iff : answer "=" = .ok true ↔ answer "⊇" = .ok true ∧ answer "∈" = .ok true

section Answers

variable {answer : String → Except Fault Bool} {value literal : String}

theorem number_answers (h : ∀ r : Relation, answer r.symbol = r.holds value literal)
    {x y : Binary64} (hx : Binary64.read value = some x) (hy : Binary64.read literal = some y) :
    answer "<" = .ok (x.lt y) ∧ answer "≤" = .ok (x.le y) ∧
      answer ">" = .ok (y.lt x) ∧ answer "≥" = .ok (y.le x) :=
  ⟨(h .less).trans (Relation.numeric_numbers hx hy _),
    (h .lessOrEqual).trans (Relation.numeric_numbers hx hy _),
    (h .greater).trans (Relation.numeric_numbers hx hy _),
    (h .greaterOrEqual).trans (Relation.numeric_numbers hx hy _)⟩

theorem text_answers (h : ∀ r : Relation, answer r.symbol = r.holds value literal) :
    (answer "=" = .ok true ↔ value = literal) ∧
      (answer "⊇" = .ok true ↔ literal.toList <:+: value.toList) ∧
      (answer "∈" = .ok true ↔ value.toList <:+: literal.toList) := by
  have hequal : answer "=" = .ok (value == literal) := h .equal
  have hcontains : answer "⊇" = .ok (Text.occurs literal.toList value.toList) := h .contains
  have hwithin : answer "∈" = .ok (Text.occurs value.toList literal.toList) := h .within
  rw [hequal, hcontains, hwithin]
  simp only [Except.ok.injEq, beq_iff_eq, Text.occurs_iff, true_and]

theorem comparisonLaws_of_holds (h : ∀ r : Relation, answer r.symbol = r.holds value literal) :
    ComparisonLaws answer value literal where
  equal := ⟨value == literal, h .equal, h .notEqual⟩
  contains := ⟨_, h .contains, h .notContains⟩
  within := ⟨_, h .within, h .notWithin⟩
  rejected r := by
    rw [h r]
    refine (rejects_iff .needsNumbers).trans (Relation.holds_error_iff.trans ?_)
    simp only [and_true]
  ordered x y hx hy hxn hyn := by
    obtain ⟨hlt, hle, hgt, hge⟩ := number_answers h hx hy
    refine ⟨⟨x.lt y, hlt, ?_⟩, ⟨y.lt x, hgt, ?_⟩, fun hless => ?_, fun hgreater => ?_⟩
    · rw [hge, Binary64.le_eq_not_lt hxn hyn]
    · rw [hle, Binary64.le_eq_not_lt hyn hxn]
    · rw [hle, Binary64.le_of_lt (Except.ok.inj (hlt.symm.trans hless))]
    · rw [hge, Binary64.le_of_lt (Except.ok.inj (hgt.symm.trans hgreater))]
  unordered x y hx hy hnan symbol hs := by
    obtain ⟨hlt, hle, hgt, hge⟩ := number_answers h hx hy
    obtain ⟨hless, hlessEqual⟩ := Binary64.nan_unordered hnan
    obtain ⟨hgreater, hgreaterEqual⟩ := Binary64.nan_unordered hnan.symm
    simp only [List.mem_cons, List.not_mem_nil, or_false] at hs
    rcases hs with rfl | rfl | rfl | rfl
    · rw [hlt, hless]
    · rw [hle, hlessEqual]
    · rw [hgt, hgreater]
    · rw [hge, hgreaterEqual]
  same hsame symbol hs := by
    subst hsame
    obtain ⟨hequal, hcontains, hwithin⟩ := text_answers h
    simp only [List.mem_cons, List.not_mem_nil, or_false] at hs
    rcases hs with rfl | rfl | rfl
    · exact hequal.mpr rfl
    · exact hcontains.mpr List.infix_rfl
    · exact hwithin.mpr List.infix_rfl
  equal_iff := by
    obtain ⟨hequal, hcontains, hwithin⟩ := text_answers h
    rw [hequal, hcontains, hwithin]
    constructor
    · rintro rfl
      exact ⟨List.infix_rfl, List.infix_rfl⟩
    -- two texts that contain each other have one length
    · rintro ⟨hin, hout⟩
      exact String.toList_inj.mp (hout.eq_of_length_le hin.length_le)

end Answers

def dial : Variables where
  slots := [⟨"level", "", " 9 "⟩, ⟨"mode", "", "auto"⟩, ⟨"void", "", "NaN"⟩]
  distinct := by decide

/-- The comparisons of a variable with a literal obey the laws, for its value and the literal with
the variables replaced. The operators that can be rejected for want of numbers are the numeric
ones. -/
theorem comparisons_obey_laws :
    (∀ t : Variables, ∀ v ∈ t.slots, ∀ literal,
      ComparisonLaws (fun symbol => t.compare ⟨v.name, symbol, literal⟩) v.current
        (t.substitute literal)) ∧
    ∀ r : Relation, r.isNumeric = true ↔ ∃ t : Variables, ∃ v ∈ t.slots, ∃ literal,
      Rejects (t.compare ⟨v.name, r.symbol, literal⟩) r.symbol "requires numeric operands" := by
  have hlaws : ∀ t : Variables, ∀ v ∈ t.slots, ∀ literal,
      ComparisonLaws (fun symbol => t.compare ⟨v.name, symbol, literal⟩) v.current
        (t.substitute literal) :=
    fun t v hv literal => comparisonLaws_of_holds fun r =>
      Variables.compare_recognised hv rfl rfl
  refine ⟨hlaws, fun r => ⟨fun hr => ?_, ?_⟩⟩
  · have hmode : ⟨"mode", "", "auto"⟩ ∈ dial.slots := by decide
    have htext : LacksNumber "auto" (dial.substitute "mode") := by decide +kernel
    exact ⟨dial, _, hmode, "mode", ((hlaws dial _ hmode "mode").rejected r).mpr ⟨hr, htext⟩⟩
  · rintro ⟨t, v, hv, literal, hrejects⟩
    exact (((hlaws t v hv literal).rejected r).mp hrejects).1

theorem dial_obeys_laws :
    dial.compare ⟨"level", "<", "1e1"⟩ = .ok true ∧
    dial.compare ⟨"level", "≥", "1e1"⟩ = .ok false ∧
    dial.compare ⟨"level", "≤", "1e1"⟩ = .ok true ∧
    Rejects (dial.compare ⟨"mode", ">", "level"⟩) ">" "requires numeric operands" ∧
    dial.compare ⟨"void", "=", "void"⟩ = .ok true ∧
    dial.compare ⟨"void", "≥", "void"⟩ = .ok false := by
  have hlevel : ⟨"level", "", " 9 "⟩ ∈ dial.slots := by decide
  have hmode : ⟨"mode", "", "auto"⟩ ∈ dial.slots := by decide
  have hvoid : ⟨"void", "", "NaN"⟩ ∈ dial.slots := by decide
  have hless : dial.compare ⟨"level", "<", "1e1"⟩ = .ok true := by decide +kernel
  have hlaws := comparisons_obey_laws.1 dial
  obtain ⟨⟨truth, htruth, hnotLess⟩, _, hlessEqual, _⟩ :=
    (hlaws _ hlevel "1e1").ordered (.ofNat 9) (.ofNat 10) (by decide +kernel) (by decide +kernel)
      (by decide +kernel) (by decide +kernel)
  obtain rfl : truth = true := Except.ok.inj (htruth.symm.trans hless)
  have htext := ((hlaws _ hmode "level").rejected .greater).mpr ⟨rfl, by decide +kernel⟩
  have hsame := (hlaws _ hvoid "void").same (by decide +kernel) "=" (by decide)
  have hnan := (hlaws _ hvoid "void").unordered .nan .nan (by decide +kernel) (by decide +kernel)
    (Or.inl rfl) "≥" (by decide)
  exact ⟨hless, hnotLess, hlessEqual hless, htext, hsame, hnan⟩

end Storyline

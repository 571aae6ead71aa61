import Storyline.Proofs.Trimming
import Storyline.Shell.Play

/-! # What a line says

The form of an order, told without the way it is read: blanks, a word, and an argument that stands
apart from the word. Every line with a character that is not blank is an order, and reading it finds
the word and the argument.
-/
namespace Storyline

namespace Shell

/-- The text consists of the lines, with a line end after each, which may be missing after the
last. -/
inductive Consists : List Char → List (List Char) → Prop where
  | empty : Consists [] []
  | last {line : List Char} : line ≠ [] → '\n' ∉ line → Consists line [line]
  | line {line rest : List Char} {more : List (List Char)} : '\n' ∉ line → Consists rest more →
    Consists (line ++ '\n' :: rest) (line :: more)

theorem lines_line {line : List Char} (h : '\n' ∉ line) (rest : List Char) :
    lines (line ++ '\n' :: rest) = line :: lines rest := by
  induction line with
  | nil => rfl
  | cons c line ih =>
    rw [List.mem_cons, not_or] at h
    rw [List.cons_append, lines, if_neg (Ne.symm h.1), ih h.2]

theorem lines_last {line : List Char} (h : '\n' ∉ line) (hsome : line ≠ []) :
    lines line = [line] := by
  induction line with
  | nil => exact absurd rfl hsome
  | cons c line ih =>
    rw [List.mem_cons, not_or] at h
    rw [lines, if_neg (Ne.symm h.1)]
    by_cases hline : line = []
    · rw [hline]
      rfl
    · rw [ih h.2 hline]

theorem consists_lines (text : List Char) : Consists text (lines text) := by
  induction text with
  | nil => exact .empty
  | cons c rest ih =>
    by_cases hc : c = '\n'
    · subst hc
      have hnone : '\n' ∉ ([] : List Char) := List.not_mem_nil
      exact .line hnone ih
    · have hcons : ∀ {line : List Char}, '\n' ∉ line → '\n' ∉ c :: line := fun h hmem =>
        (List.mem_cons.mp hmem).elim (fun heq => hc heq.symm) h
      rw [lines, if_neg hc]
      generalize lines rest = ls at ih
      cases ih with
      | empty => exact .last (List.cons_ne_nil c []) (hcons List.not_mem_nil)
      | last _ hline => exact .last (List.cons_ne_nil c rest) (hcons hline)
      | line hline hmore => exact .line (hcons hline) hmore

theorem lines_eq_iff {text : List Char} {ls : List (List Char)} :
    lines text = ls ↔ Consists text ls := by
  refine ⟨fun h => h ▸ consists_lines text, fun h => ?_⟩
  induction h with
  | empty => rfl
  | last hsome hline => exact lines_last hline hsome
  | line hline _ ih => rw [lines_line hline, ih]

/-- The line names an order by a word, in capital or small letters, and gives it an argument, which
is empty if nothing but blanks comes after the word. -/
inductive Says : List Char → String → List Char → Prop where
  | order {front typed rest argument : List Char} : (∀ c ∈ front, Text.isBlank c) → typed ≠ [] →
    (∀ c ∈ typed, ¬ Text.isBlank c) → (∀ c ∈ rest.head?, Text.isBlank c) →
    Text.Trimmed rest argument → Says (front ++ typed ++ rest) (.ofList (Text.lower typed)) argument

/-- The text is a decimal number of 64 bits, which may have a plus sign. -/
def IndexText (text : List Char) (n : UInt64) : Prop :=
  ∃ digits, (text = digits ∨ text = '+' :: digits) ∧ digits ≠ [] ∧ (∀ c ∈ digits, c.isDigit) ∧
    Nat.ofDigitChars 10 digits 0 = n.toNat

def Binds (text name value : List Char) : Prop :=
  ∃ c rest, text = name ++ c :: rest ∧ Text.isBlank c ∧ (∀ x ∈ name, ¬ Text.isBlank x) ∧
    Text.Trimmed rest value

theorem unsigned?_eq_some_iff {text : List Char} {n : UInt64} :
    unsigned? text = some n ↔ IndexText text n := by
  have hdigits : ∀ digits : List Char,
      (if !digits.isEmpty && digits.all Char.isDigit &&
          Nat.ofDigitChars 10 digits 0 < UInt64.size then
        some (UInt64.ofNat (Nat.ofDigitChars 10 digits 0)) else none) = some n ↔
      digits ≠ [] ∧ (∀ c ∈ digits, c.isDigit) ∧ Nat.ofDigitChars 10 digits 0 = n.toNat := by
    intro digits
    rw [Option.ite_none_right_eq_some]
    simp only [Bool.and_eq_true, Bool.not_eq_true', List.isEmpty_eq_false_iff, List.all_eq_true,
      decide_eq_true_eq, Option.some.injEq, and_assoc]
    refine and_congr_right fun _ => and_congr_right fun _ => ⟨?_, fun h => ?_⟩
    · rintro ⟨hlt, rfl⟩
      exact (UInt64.toNat_ofNat_of_lt' hlt).symm
    · rw [h]
      exact ⟨n.toNat_lt, UInt64.ofNat_toNat⟩
  have hplus : ∀ digits, (∀ c ∈ '+' :: digits, c.isDigit) → False := fun digits h =>
    absurd (h '+' List.mem_cons_self) (by decide)
  unfold unsigned? IndexText
  split
  · next digits =>
    rw [hdigits]
    constructor
    · rintro ⟨hsome, hall, hvalue⟩
      exact ⟨digits, Or.inr rfl, hsome, hall, hvalue⟩
    · rintro ⟨other, rfl | hother, hsome, hall, hvalue⟩
      · exact (hplus digits hall).elim
      · obtain rfl := (List.cons_eq_cons.mp hother).2
        exact ⟨hsome, hall, hvalue⟩
  · next hno =>
    rw [hdigits]
    constructor
    · rintro ⟨hsome, hall, hvalue⟩
      exact ⟨text, Or.inl rfl, hsome, hall, hvalue⟩
    · rintro ⟨other, rfl | rfl, hsome, hall, hvalue⟩
      · exact ⟨hsome, hall, hvalue⟩
      · exact (hno other rfl).elim

namespace Order

theorem binding?_eq_some_iff {text : List Char} {name value : String} :
    binding? text = some (name, value) ↔
      ∃ n v, Binds text n v ∧ name = .ofList n ∧ value = .ofList v := by
  simp only [binding?, Option.map_eq_some_iff, Prod.exists, Prod.mk.injEq, Binds,
    Text.splitAtBlank_eq_some_iff, ← Text.trim_eq_iff]
  constructor
  · rintro ⟨n, rest, ⟨c, rfl, hc, hn⟩, rfl, rfl⟩
    exact ⟨n, _, ⟨c, rest, rfl, hc, hn, rfl⟩, rfl, rfl⟩
  · rintro ⟨n, v, ⟨c, rest, rfl, hc, hn, rfl⟩, rfl, rfl⟩
    exact ⟨n, rest, ⟨c, rfl, hc, hn⟩, rfl, rfl⟩

theorem read_blank {line : List Char} (h : ∀ c ∈ line, Text.isBlank c) : read line = .nothing := by
  rw [read, Text.trim_blank h]

theorem read_core {line typed rest : List Char} (h : Text.Trimmed line (typed ++ rest))
    (hsome : typed ≠ []) (htyped : ∀ c ∈ typed, ¬ Text.isBlank c)
    (hrest : ∀ c ∈ rest.head?, Text.isBlank c) :
    read line = ofWord (.ofList (Text.lower typed)) (Text.trim rest) := by
  have htrim := Text.trim_of_trimmed h
  unfold read
  split
  · next hnone => simp [htrim, hsome] at hnone
  · rw [htrim]
    cases rest with
    | nil =>
      rw [List.append_nil, Text.splitAtBlank_word htyped]
      rfl
    | cons c rest =>
      rw [Text.splitAtBlank_found htyped (hrest c rfl), Text.trim_cons_blank (hrest c rfl)]
      rfl

theorem read_said {line argument : List Char} {word : String} (h : Says line word argument) :
    read line = ofWord word argument := by
  cases h with | @order front typed rest _ hfront hsome htyped hrest hargument =>
  -- what is left of the line ends with the word, or with the argument if there is one
  obtain ⟨inner, back, rfl, hback, hinner⟩ := Text.exists_trailing Text.isBlank rest
  rw [← Text.trim_of_trimmed hargument, Text.trim_append_blank hback]
  refine read_core ⟨⟨front, back, by simp, hfront, hback⟩, ?_, ?_⟩ hsome htyped
    fun c hc => hrest c (Text.mem_head_append hc back)
  · intro c hc
    obtain ⟨first, others, rfl⟩ := List.exists_cons_of_ne_nil hsome
    obtain rfl : first = c := by simpa using hc
    exact htyped first List.mem_cons_self
  · intro c hc
    rw [List.getLast?_append, Option.mem_def, Option.or_eq_some_iff] at hc
    rcases hc with hc | ⟨_, hc⟩
    · exact hinner c hc
    · exact htyped c (List.mem_of_getLast? hc)

end Order

theorem blank_or_said (line : List Char) :
    (∀ c ∈ line, Text.isBlank c) ∨ ∃ word argument, Says line word argument := by
  obtain ⟨front, text, rfl, hfront, htext⟩ := Text.exists_span Text.isBlank line
  obtain ⟨typed, rest, rfl, htyped, hrest⟩ := Text.exists_span (!Text.isBlank ·) text
  by_cases hsome : typed = []
  · subst hsome
    cases rest with
    | nil => exact Or.inl (by simpa using hfront)
    | cons c rest =>
      have hblank : Text.isBlank c := by simpa using hrest
      exact absurd hblank (htext c rfl)
  · refine Or.inr ⟨.ofList (Text.lower typed), Text.trim rest, ?_⟩
    rw [← List.append_assoc]
    exact .order hfront hsome (by simpa using htyped) (by simpa using hrest)
      (Text.trimmed_trim rest)

theorem Order.read_iff {P : Order → Prop} (hblank : ¬ P .nothing) {line : List Char} :
    P (Order.read line) ↔ ∃ word argument, Says line word argument ∧ P (ofWord word argument) := by
  constructor
  · intro h
    rcases blank_or_said line with hline | ⟨word, argument, hsaid⟩
    · rw [read_blank hline] at h
      exact absurd h hblank
    · exact ⟨word, argument, hsaid, read_said hsaid ▸ h⟩
  · rintro ⟨word, argument, hsaid, h⟩
    rwa [read_said hsaid]

example : Order.read "\u00A0SET gold  3 coins ".toList = .set (some ("gold", "3 coins")) := by
  decide +kernel

end Shell
end Storyline

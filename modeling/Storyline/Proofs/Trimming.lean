import Storyline.Text.Blank

/-! # Texts cut at blanks

What trimming leaves, told without the way it is cut: the text is that core with nothing but blanks
around it, and the core does not begin or end with one. A text is split at its first blank.
-/
namespace Storyline.Text

/-- What is left of a text without the blanks at its two ends. -/
structure Trimmed (text core : List Char) : Prop where
  around : ∃ front back, text = front ++ core ++ back ∧ (∀ c ∈ front, isBlank c) ∧
    ∀ c ∈ back, isBlank c
  first : ∀ c ∈ core.head?, ¬ isBlank c
  last : ∀ c ∈ core.getLast?, ¬ isBlank c

theorem exists_span (p : Char → Bool) (text : List Char) :
    ∃ front rest, text = front ++ rest ∧ (∀ c ∈ front, p c) ∧ ∀ c ∈ rest.head?, ¬ p c := by
  induction text with
  | nil => exact ⟨[], [], rfl, by simp, by simp⟩
  | cons c text ih =>
    by_cases hc : p c
    · obtain ⟨front, rest, rfl, hfront, hrest⟩ := ih
      exact ⟨c :: front, rest, rfl, by simpa [hc] using hfront, hrest⟩
    · exact ⟨[], c :: text, rfl, by simp, by simpa using hc⟩

theorem exists_trailing (p : Char → Bool) (text : List Char) :
    ∃ inner back, text = inner ++ back ∧ (∀ c ∈ back, p c) ∧ ∀ c ∈ inner.getLast?, ¬ p c := by
  obtain ⟨back, inner, hsplit, hback, hinner⟩ := exists_span p text.reverse
  refine ⟨inner.reverse, back.reverse, ?_, fun c hc => hback c (List.mem_reverse.mp hc), ?_⟩
  · rw [← List.reverse_append, ← hsplit, List.reverse_reverse]
  · intro c hc
    exact hinner c (by rwa [List.getLast?_reverse] at hc)

theorem mem_head_append {c : Char} {text : List Char} (h : c ∈ text.head?) (rest : List Char) :
    c ∈ (text ++ rest).head? := by
  rw [Option.mem_def] at h ⊢
  rw [List.head?_append, h, Option.some_or]

section Span

variable {p : Char → Bool} {front rest front' rest' : List Char}

theorem takeWhile_span (hfront : ∀ c ∈ front, p c) (hrest : ∀ c ∈ rest.head?, ¬ p c) :
    (front ++ rest).takeWhile p = front := by
  rw [List.takeWhile_append_of_pos hfront]
  cases rest with
  | nil => simp
  | cons c rest => simp [hrest c rfl]

theorem dropWhile_span (hfront : ∀ c ∈ front, p c) (hrest : ∀ c ∈ rest.head?, ¬ p c) :
    (front ++ rest).dropWhile p = rest := by
  rw [List.dropWhile_append_of_pos hfront]
  cases rest with
  | nil => rfl
  | cons c rest => exact List.dropWhile_cons_of_neg (hrest c rfl)

theorem span_unique (h : front ++ rest = front' ++ rest') (hfront : ∀ c ∈ front, p c)
    (hrest : ∀ c ∈ rest.head?, ¬ p c) (hfront' : ∀ c ∈ front', p c)
    (hrest' : ∀ c ∈ rest'.head?, ¬ p c) : front = front' ∧ rest = rest' := by
  constructor
  · rw [← takeWhile_span hfront hrest, h, takeWhile_span hfront' hrest']
  · rw [← dropWhile_span hfront hrest, h, dropWhile_span hfront' hrest']

end Span

theorem trim_blank {text : List Char} (h : ∀ c ∈ text, isBlank c) : trim text = [] := by
  have hnone : text.dropWhile isBlank = [] := by
    have hempty : ∀ c ∈ ([] : List Char).head?, ¬ isBlank c := by simp
    simpa using dropWhile_span h hempty
  rw [trim, hnone]
  rfl

theorem trim_of_trimmed {text core : List Char} (h : Trimmed text core) : trim text = core := by
  obtain ⟨⟨front, back, rfl, hfront, hback⟩, hfirst, hlast⟩ := h
  cases core with
  | nil => exact trim_blank (by simpa [or_imp, forall_and] using ⟨hfront, hback⟩)
  | cons c rest =>
    have hhead : ∀ x ∈ (c :: rest ++ back).head?, ¬ isBlank x := hfirst
    have htail : ∀ x ∈ (c :: rest).reverse.head?, ¬ isBlank x := fun x hx =>
      hlast x (by rwa [List.head?_reverse] at hx)
    have hreverse : ∀ x ∈ back.reverse, isBlank x := fun x hx => hback x (List.mem_reverse.mp hx)
    rw [trim, List.append_assoc, dropWhile_span hfront hhead, List.reverse_append,
      dropWhile_span hreverse htail, List.reverse_reverse]

theorem trim_word {word : List Char} (h : ∀ c ∈ word, ¬ isBlank c) : trim word = word :=
  trim_of_trimmed ⟨⟨[], [], by simp, by simp, by simp⟩, fun c hc => h c (List.mem_of_head? hc),
    fun c hc => h c (List.mem_of_getLast? hc)⟩

theorem trimmed_trim (text : List Char) : Trimmed text (trim text) := by
  obtain ⟨front, rest, rfl, hfront, hrest⟩ := exists_span isBlank text
  obtain ⟨core, back, rfl, hback, hlast⟩ := exists_trailing isBlank rest
  have h : Trimmed (front ++ (core ++ back)) core :=
    ⟨⟨front, back, (List.append_assoc ..).symm, hfront, hback⟩,
      fun c hc => hrest c (mem_head_append hc back), hlast⟩
  rw [trim_of_trimmed h]
  exact h

theorem trim_eq_iff {text core : List Char} : trim text = core ↔ Trimmed text core :=
  ⟨fun h => h ▸ trimmed_trim text, trim_of_trimmed⟩

theorem trim_cons_blank {c : Char} (hc : isBlank c) (text : List Char) :
    trim (c :: text) = trim text := by
  rw [trim, List.dropWhile_cons_of_pos hc, trim]

theorem trim_append_blank {text back : List Char} (hback : ∀ c ∈ back, isBlank c) :
    trim (text ++ back) = trim text := by
  obtain ⟨⟨front, rear, hsplit, hfront, hrear⟩, hfirst, hlast⟩ := trimmed_trim text
  refine trim_of_trimmed ⟨⟨front, rear ++ back, ?_, hfront, ?_⟩, hfirst, hlast⟩
  · rw [← List.append_assoc, ← hsplit]
  · simpa [or_imp, forall_and] using ⟨hrear, hback⟩

theorem splitAtBlank_word {word : List Char} (h : ∀ c ∈ word, ¬ isBlank c) :
    splitAtBlank word = none := by
  induction word with
  | nil => rfl
  | cons c word ih =>
    rw [splitAtBlank, if_neg (h c List.mem_cons_self),
      ih fun x hx => h x (List.mem_cons_of_mem c hx)]
    rfl

theorem splitAtBlank_found {word rest : List Char} {c : Char} (h : ∀ c ∈ word, ¬ isBlank c)
    (hc : isBlank c) : splitAtBlank (word ++ c :: rest) = some (word, rest) := by
  induction word with
  | nil => exact if_pos hc
  | cons first word ih =>
    rw [List.cons_append, splitAtBlank, if_neg (h first List.mem_cons_self),
      ih fun x hx => h x (List.mem_cons_of_mem first hx)]
    rfl

theorem splitAtBlank_eq_some_iff {text word rest : List Char} :
    splitAtBlank text = some (word, rest) ↔
      ∃ c, text = word ++ c :: rest ∧ isBlank c ∧ ∀ x ∈ word, ¬ isBlank x := by
  constructor
  · intro h
    obtain ⟨front, back, rfl, hfront, hback⟩ := exists_span (!isBlank ·) text
    have hword : ∀ c ∈ front, ¬ isBlank c := by simpa using hfront
    cases back with
    | nil => simp [splitAtBlank_word hword] at h
    | cons c back =>
      have hc : isBlank c := by simpa using hback
      rw [splitAtBlank_found hword hc] at h
      cases h
      exact ⟨c, rfl, hc, hword⟩
  · rintro ⟨c, rfl, hc, hword⟩
    exact splitAtBlank_found hword hc

end Storyline.Text

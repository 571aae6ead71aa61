import Storyline.Proofs.Occurrence
import Storyline.Proofs.Replacement

/-! # A text in pieces

What a replacement makes of a text, told without the way it is read: the text is cut at the first
occurrence of the name, the rest of it again, and so on until the name does not occur. The pieces
are joined by the name in the old text and by the value in the new one.
-/
namespace Storyline

namespace Text

/-- In the text `gap ++ name ++ rest` the name occurs right behind the gap, and not before. -/
def FirstBehind (name gap rest : List Char) : Prop :=
  ∀ before behind, gap ++ (name ++ rest) = before ++ (name ++ behind) → gap.length ≤ before.length

/-- The pieces between the occurrences of a name, cut off from the left. -/
inductive Pieces (name : List Char) : List Char → List (List Char) → Prop where
  | last {text} : ¬ name <:+: text → Pieces name text [text]
  | cut {gap rest pieces} : FirstBehind name gap rest → Pieces name rest pieces →
      Pieces name (gap ++ (name ++ rest)) (gap :: pieces)

variable {name value gap rest text : List Char} {pieces : List (List Char)}

theorem firstBehind_nil (name rest : List Char) : FirstBehind name [] rest :=
  fun _ _ _ => Nat.zero_le _

theorem FirstBehind.cons {c : Char} (h : FirstBehind name gap rest)
    (hbegins : ¬ name <+: c :: (gap ++ (name ++ rest))) : FirstBehind name (c :: gap) rest := by
  intro before behind hsplit
  cases before with
  | nil => exact absurd ⟨behind, hsplit.symm⟩ hbegins
  | cons d before =>
    have htail : gap ++ (name ++ rest) = before ++ (name ++ behind) := (List.cons.inj hsplit).2
    exact Nat.succ_le_succ (h before behind htail)

theorem FirstBehind.not_prefix (h : FirstBehind name gap rest) {s : List Char} (hs : s ≠ [])
    (hsuffix : s <:+ gap) : ¬ name <+: s ++ (name ++ rest) := by
  rintro ⟨behind, hbehind⟩
  obtain ⟨before, rfl⟩ := hsuffix
  have hlength := h before behind (by rw [List.append_assoc, hbehind])
  have := List.length_pos_iff.mpr hs
  rw [List.length_append] at hlength
  omega

theorem FirstBehind.unique {gap' rest' : List Char} (h : FirstBehind name gap rest)
    (h' : FirstBehind name gap' rest') (heq : gap ++ (name ++ rest) = gap' ++ (name ++ rest')) :
    gap = gap' ∧ rest = rest' := by
  have hlength : gap.length = gap'.length :=
    Nat.le_antisymm (h gap' rest' heq) (h' gap rest heq.symm)
  obtain ⟨hgap, hbehind⟩ := List.append_inj heq hlength
  exact ⟨hgap, List.append_cancel_left hbehind⟩

namespace Pieces

theorem ne_nil (h : Pieces name text pieces) : pieces ≠ [] := by
  cases h with
  | last => exact List.cons_ne_nil _ _
  | cut => exact List.cons_ne_nil _ _

theorem intercalate_cut (joint gap : List Char) (h : pieces ≠ []) :
    joint.intercalate (gap :: pieces) = gap ++ (joint ++ joint.intercalate pieces) := by
  obtain ⟨piece, more, rfl⟩ := List.exists_cons_of_ne_nil h
  simp [List.intercalate]

theorem joined (h : Pieces name text pieces) : name.intercalate pieces = text := by
  induction h with
  | last => simp [List.intercalate]
  | cut _ hrest ih => rw [intercalate_cut _ _ hrest.ne_nil, ih]

theorem replaced (h : Pieces name text pieces) (hname : name ≠ []) (value : List Char) :
    replaceAll name value text = value.intercalate pieces := by
  induction h with
  | last habsent =>
    rw [replaceAll_absent fun _ => habsent]
    simp [List.intercalate]
  | cut hfirst hrest ih =>
    rw [replaceAll_append fun s hs hsuffix => hfirst.not_prefix hs hsuffix,
      replaceAll_found hname, ih, intercalate_cut _ _ hrest.ne_nil]

theorem cons {c : Char} (h : Pieces name text pieces) (hbegins : ¬ name <+: c :: text) :
    ∃ piece more, pieces = piece :: more ∧ Pieces name (c :: text) ((c :: piece) :: more) := by
  cases h with
  | last habsent =>
    refine ⟨text, [], rfl, .last ?_⟩
    rw [List.infix_cons_iff]
    exact not_or.mpr ⟨hbegins, habsent⟩
  | cut hfirst hrest => exact ⟨_, _, rfl, .cut (hfirst.cons hbegins) hrest⟩

theorem exists_pieces (hname : name ≠ []) (text : List Char) :
    ∃ pieces, Pieces name text pieces := by
  induction text using reading hname with
  | nil => exact ⟨_, .last (mt List.infix_nil.mp hname)⟩
  | found rest ih =>
    obtain ⟨pieces, hpieces⟩ := ih
    exact ⟨_, .cut (firstBehind_nil name rest) hpieces⟩
  | kept c rest hbegins ih =>
    obtain ⟨pieces, hpieces⟩ := ih
    obtain ⟨piece, more, _, hmore⟩ := hpieces.cons hbegins
    exact ⟨_, hmore⟩

theorem found (h : Pieces name (gap ++ (name ++ rest)) pieces)
    (hfirst : FirstBehind name gap rest) :
    ∃ more, pieces = gap :: more ∧ Pieces name rest more := by
  generalize hwhole : gap ++ (name ++ rest) = whole at h
  cases h with
  | last habsent => exact absurd ⟨gap, rest, by rw [List.append_assoc, hwhole]⟩ habsent
  | cut hfirst' hrest =>
    obtain ⟨rfl, rfl⟩ := hfirst.unique hfirst' hwhole
    exact ⟨_, rfl, hrest⟩

theorem unique {others : List (List Char)} (h : Pieces name text pieces)
    (h' : Pieces name text others) : others = pieces := by
  induction h generalizing others with
  | last habsent =>
    cases h' with
    | last => rfl
    | cut => exact absurd ⟨_, _, List.append_assoc _ _ _⟩ habsent
  | cut hfirst _ ih =>
    obtain ⟨more, rfl, hmore⟩ := h'.found hfirst
    rw [ih hmore]

end Pieces
end Text

namespace Variables

theorem pass_own_name {v : Variable} (h : v.current = v.name) (text : List Char) :
    pass text v = text := by
  by_cases hname : v.name = ""
  · exact pass_nameless hname text
  · have hgiven : v.name.toList ≠ [] := by simpa using hname
    obtain ⟨pieces, hpieces⟩ := Text.Pieces.exists_pieces hgiven text
    rw [pass, h, hpieces.replaced hgiven, hpieces.joined]

theorem substitute_own_names {t : Variables} (h : ∀ v ∈ t.slots, v.current = v.name)
    (text : String) : t.substitute text = text := by
  have hfold : ∀ slots ⊆ t.slots, slots.foldl pass text.toList = text.toList := by
    intro slots
    induction slots with
    | nil => intro _; rfl
    | cons v rest ih =>
      intro hs
      obtain ⟨hv, hrest⟩ := List.cons_subset.mp hs
      rw [List.foldl_cons, pass_own_name (h v hv), ih hrest]
  rw [substitute_pass, hfold _ (List.Subset.refl _), String.ofList_toList]

theorem foldl_pass_named (slots : List Variable) (text : List Char) :
    slots.foldl pass text = (slots.filter (·.name ≠ "")).foldl pass text := by
  induction slots generalizing text with
  | nil => rfl
  | cons v rest ih =>
    by_cases hname : v.name = ""
    · simp [hname, pass_nameless hname, ih]
    · simp [hname, ih]

end Variables

/-- A text goes through the variables that have a name, one after the other. Each pass cuts it, in
the one way there is, into pieces that end at the first occurrence of the name in what is left, and
joins these by the value. So a text without any name is kept whatever the values are, and every text
is kept where each value is the name of its variable. -/
theorem substitution_joins_pieces (t : Variables) (text : String) :
    t.substitute text = String.ofList
      ((t.slots.filter (·.name ≠ "")).foldl
        (fun text v => Text.replaceAll v.name.toList v.current.toList text) text.toList) ∧
    (∀ name value input : List Char, name ≠ [] →
      ∃! pieces, Text.Pieces name input pieces ∧ input = name.intercalate pieces ∧
        Text.replaceAll name value input = value.intercalate pieces) ∧
    (Variables.Absent t.names text → ∀ value, (t.update value).substitute text = text) ∧
    ((∀ v ∈ t.slots, v.current = v.name) → t.substitute text = text) := by
  refine ⟨?_, fun name value input hname => ?_, fun habsent value => ?_, fun hown => ?_⟩
  · rw [Variables.substitute_pass, Variables.foldl_pass_named]
    rfl
  · obtain ⟨pieces, hpieces⟩ := Text.Pieces.exists_pieces hname input
    exact ⟨pieces, ⟨hpieces, hpieces.joined.symm, hpieces.replaced hname value⟩,
      fun others hothers => hpieces.unique hothers.1⟩
  · exact Variables.substitute_absent (by rwa [Variables.update_names])
  · exact Variables.substitute_own_names hown text

/-- The first name overlaps itself, the second occurs in a value, and the last is no name. -/
def echo : Variables where
  slots := [⟨"aa", "", "b"⟩, ⟨"b", "", ""⟩, ⟨"", "", "a"⟩]
  distinct := by decide

theorem echo_joins_pieces :
    echo.substitute "caaaaab" = "ca" ∧
    (∃! pieces, Text.Pieces ['a', 'a'] ['c', 'a', 'a', 'a', 'a', 'a', 'b'] pieces ∧
      ['c', 'a', 'a', 'a', 'a', 'a', 'b'] = ['a', 'a'].intercalate pieces ∧
      Text.replaceAll ['a', 'a'] ['b'] ['c', 'a', 'a', 'a', 'a', 'a', 'b'] =
        ['b'].intercalate pieces) ∧
    Variables.Absent echo.names "cac" ∧ (echo.update (·.name)).substitute "cac" = "cac" ∧
    (∀ v ∈ (echo.update (·.name)).slots, v.current = v.name) ∧
    (echo.update (·.name)).substitute "caaaaab" = "caaaaab" := by
  obtain ⟨_, hpieces, habsent, _⟩ := substitution_joins_pieces echo "cac"
  have hnone : Variables.Absent echo.names "cac" := by
    unfold Variables.Absent
    decide +kernel
  have hown : ∀ v ∈ (echo.update (·.name)).slots, v.current = v.name := by decide +kernel
  exact ⟨by decide +kernel, hpieces _ _ _ (by decide), hnone, habsent hnone _, hown,
    (substitution_joins_pieces _ _).2.2.2 hown⟩

end Storyline

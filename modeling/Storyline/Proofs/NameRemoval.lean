import Storyline.Proofs.SubstitutionOrder

/-! # Names that substitution removes

If the values have no character in common with the names, no name is left in a text when all the
variables have been replaced, however the names overlap: what is left of a text around an occurrence
cannot join to a name, since a value that is not empty stands between. A second substitution then
finds nothing to replace.
-/
namespace Storyline

namespace Text

variable {name value p rest : List Char}

theorem Foreign.infix_append (h : Foreign value p) (hp : p ≠ []) (hin : p <:+: value ++ rest) :
    p <:+: rest := by
  induction value with
  | nil => exact hin
  | cons c tail ih =>
    rcases List.infix_cons_iff.mp hin with hbegins | hlater
    · exact absurd hbegins (h.not_prefix hp (List.cons_ne_nil c tail) List.suffix_rfl)
    · exact ih (fun x hx => h x (List.mem_cons_of_mem c hx)) hlater

/-- What occurs in the new text, without characters of the value, occurred before, at a place that
was kept because the name does not begin there. -/
theorem kept_of_infix_replaceAll (hname : name ≠ []) (hvalue : value ≠ []) (hp : p ≠ [])
    (hforeign : Foreign value p) {text : List Char} (h : p <:+: replaceAll name value text) :
    ∃ place, place <:+ text ∧ p <+: place ∧ ¬ name <+: place := by
  induction text using reading hname with
  | nil => exact absurd (List.infix_nil.mp (replaceAll_nil ▸ h)) hp
  | found rest ih =>
    rw [replaceAll_found hname] at h
    obtain ⟨place, hplace, hbegins, hkept⟩ := ih (hforeign.infix_append hp h)
    exact ⟨place, hplace.trans (List.suffix_append name rest), hbegins, hkept⟩
  | kept c rest hkept ih =>
    rw [replaceAll_kept hkept] at h
    rcases List.infix_cons_iff.mp h with hhere | hlater
    · rw [← replaceAll_kept hkept] at hhere
      exact ⟨c :: rest, List.suffix_rfl, prefix_of_prefix_replaceAll hname hvalue hforeign hhere,
        hkept⟩
    · obtain ⟨place, hplace, hbegins, hkept'⟩ := ih hlater
      exact ⟨place, hplace.trans (List.suffix_cons c rest), hbegins, hkept'⟩

theorem replaceAll_removes (hname : name ≠ []) (hvalue : value ≠ [])
    (hforeign : Foreign value name) (text : List Char) :
    ¬ name <:+: replaceAll name value text := by
  intro h
  obtain ⟨_, _, hbegins, hkept⟩ := kept_of_infix_replaceAll hname hvalue hname hforeign h
  exact hkept hbegins

theorem replaceAll_adds_none (hname : name ≠ []) (hvalue : value ≠ []) (hp : p ≠ [])
    (hforeign : Foreign value p) {text : List Char} (h : ¬ p <:+: text) :
    ¬ p <:+: replaceAll name value text := by
  intro hin
  obtain ⟨_, hplace, hbegins, _⟩ := kept_of_infix_replaceAll hname hvalue hp hforeign hin
  exact h (hbegins.isInfix.trans hplace.isInfix)

end Text

namespace Variables

variable {t : Variables}

theorem pass_removes (h : t.ValuesForeign) {v : Variable} (hv : v ∈ t.slots) {name : String}
    (hn : name ∈ t.names) (hne : name ≠ "") {text : List Char}
    (hgone : name = v.name ∨ ¬ name.toList <:+: text) : ¬ name.toList <:+: pass text v := by
  by_cases hnameless : v.name = ""
  · rw [pass_nameless hnameless]
    exact hgone.resolve_left fun he => hne (he.trans hnameless)
  · obtain ⟨hvalue, hforeign⟩ := h v hv hnameless
    have hname : v.name.toList ≠ [] := by simpa using hnameless
    have hvalue' : v.current.toList ≠ [] := by simpa using hvalue
    rcases hgone with rfl | habsent
    · exact Text.replaceAll_removes hname hvalue' (hforeign _ hn) text
    · exact Text.replaceAll_adds_none hname hvalue' (by simpa using hne) (hforeign _ hn) habsent

theorem passes_remove (h : t.ValuesForeign) {slots : List Variable} (hs : ∀ v ∈ slots, v ∈ t.slots)
    {name : String} (hn : name ∈ t.names) (hne : name ≠ "") {text : List Char}
    (hgone : name ∈ slots.map (·.name) ∨ ¬ name.toList <:+: text) :
    ¬ name.toList <:+: slots.foldl pass text := by
  -- The passes that are over keep their names out.
  induction slots generalizing text with
  | nil => simpa using hgone
  | cons v rest ih =>
    refine ih (fun w hw => hs w (List.mem_cons_of_mem v hw)) ?_
    rw [List.map_cons, List.mem_cons, or_comm (a := name = v.name), or_assoc] at hgone
    exact hgone.imp_right (pass_removes h (hs v List.mem_cons_self) hn hne)

theorem substitute_removes (h : t.ValuesForeign) (text : String) :
    Absent t.names (t.substitute text) := by
  intro name hn hne
  rw [substitute_pass, String.toList_ofList]
  exact passes_remove h (fun _ hv => hv) hn hne (Or.inl hn)

end Variables

/-- With values that are not empty and foreign to all names, no name is left in a text after the
substitution. So a second one changes nothing, and the texts that substitution leaves as they are
are those in which no name occurs. -/
theorem substitution_removes_names (t : Variables) (h : t.ValuesForeign) (text : String) :
    Variables.Absent t.names (t.substitute text) ∧
      t.substitute (t.substitute text) = t.substitute text ∧
      (t.substitute text = text ↔ Variables.Absent t.names text) := by
  have habsent := Variables.substitute_removes h text
  refine ⟨habsent, Variables.substitute_absent habsent, fun hsame => ?_,
    Variables.substitute_absent⟩
  rwa [hsame] at habsent

/-- Each name contains the next one, and the first overlaps itself. -/
def thicket : Variables where
  slots := [⟨"aba", "", "1"⟩, ⟨"ab", "", "22"⟩, ⟨"b", "", "-"⟩, ⟨"", "", "ab"⟩]
  distinct := by decide

theorem thicket_removes_names :
    thicket.ValuesForeign ∧ thicket.substitute "aababab" = "a1-22" ∧
      Variables.Absent thicket.names "a1-22" ∧ thicket.substitute "a1-22" = "a1-22" := by
  have hvalues : thicket.ValuesForeign := by decide +kernel
  have htext : thicket.substitute "aababab" = "a1-22" := by decide +kernel
  obtain ⟨habsent, hagain, _⟩ := substitution_removes_names thicket hvalues "aababab"
  rw [htext] at habsent hagain
  exact ⟨hvalues, htext, habsent, hagain⟩

end Storyline

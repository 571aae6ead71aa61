import Mathlib.Data.List.Infix
import Storyline.Proofs.Store

/-! # Occurrences

A pattern occurs in a text as an infix of it. Replacing a name that does not occur in a text leaves
the text as it is.
-/
namespace Storyline

namespace Text

theorem occurs_iff {pattern text : List Char} : occurs pattern text = true ↔ pattern <:+: text := by
  induction text with
  | nil => simp [occurs]
  | cons c rest ih => simp [occurs, ih, List.infix_cons_iff]

theorem replaceFrom_absent {pattern value text : List Char} (h : ¬ pattern <:+: text) :
    replaceFrom pattern value 0 text = text := by
  induction text with
  | nil => rfl
  | cons c rest ih =>
    have hp : ¬ pattern.isPrefixOf (c :: rest) := fun hp =>
      h (List.isPrefixOf_iff_prefix.mp hp).isInfix
    have hr : ¬ pattern <:+: rest := fun hr => h (hr.trans (List.suffix_cons c rest).isInfix)
    unfold replaceFrom
    rw [if_neg hp, ih hr]

theorem replaceAll_absent {pattern value text : List Char}
    (h : pattern ≠ [] → ¬ pattern <:+: text) : replaceAll pattern value text = text := by
  unfold replaceAll
  split
  · rfl
  · next hp => exact replaceFrom_absent (h (by simpa using hp))

end Text

namespace Variables

/-- No name of a variable, the empty one apart, occurs in the text. -/
def Absent (names : List String) (text : String) : Prop :=
  ∀ name ∈ names, name ≠ "" → ¬ name.toList <:+: text.toList

def pass (text : List Char) (v : Variable) : List Char :=
  Text.replaceAll v.name.toList v.current.toList text

theorem pass_nameless {v : Variable} (h : v.name = "") (text : List Char) : pass text v = text := by
  simp [pass, Text.replaceAll, h]

theorem substitute_pass (t : Variables) (text : String) :
    t.substitute text = String.ofList (t.slots.foldl pass text.toList) := by
  unfold substitute
  congr 2
  funext text v
  split
  · next hover =>
    rcases hover with hname | habsent
    · exact (pass_nameless hname text).symm
    · exact (Text.replaceAll_absent fun _ => mt Text.occurs_iff.mpr habsent).symm
  · rfl

theorem pass_absent {v : Variable} {text : List Char}
    (h : v.name ≠ "" → ¬ v.name.toList <:+: text) : pass text v = text :=
  Text.replaceAll_absent fun hname => h (by simpa using hname)

theorem substitute_absent {t : Variables} {text : String} (h : Absent t.names text) :
    t.substitute text = text := by
  have hfold : ∀ slots : List Variable, (∀ v ∈ slots, v.name ∈ t.names) →
      slots.foldl pass text.toList = text.toList := by
    intro slots
    induction slots with
    | nil => intro _; rfl
    | cons v rest ih =>
      intro hs
      rw [List.foldl_cons, pass_absent (h v.name (hs v List.mem_cons_self))]
      exact ih fun w hw => hs w (List.mem_cons_of_mem v hw)
  rw [substitute_pass, hfold t.slots fun v hv => List.mem_map.mpr ⟨v, hv, rfl⟩,
    String.ofList_toList]

end Variables
end Storyline

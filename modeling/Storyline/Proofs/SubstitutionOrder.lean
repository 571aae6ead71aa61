import Mathlib.Data.List.Nodup
import Storyline.Proofs.Occurrence
import Storyline.Proofs.Replacement

/-! # When the order of the variables does not matter

Names are replaced one variable after the other, so in general the order counts. It does not where
occurrences of different names cannot touch each other and no value brings in a character of a name.
-/
namespace Storyline

namespace Variables

/-- Occurrences of different names do not touch each other. -/
def NamesApart (t : Variables) : Prop :=
  ∀ n ∈ t.names, ∀ m ∈ t.names, n ≠ "" → m ≠ "" → n ≠ m → Text.Apart n.toList m.toList

/-- The value of a variable that has a name is not empty, and has no character of any name. -/
def ValuesForeign (t : Variables) : Prop :=
  ∀ v ∈ t.slots, v.name ≠ "" →
    v.current ≠ "" ∧ ∀ n ∈ t.names, Text.Foreign v.current.toList n.toList

instance (t : Variables) : Decidable t.NamesApart :=
  inferInstanceAs (Decidable (∀ n ∈ t.names, ∀ m ∈ t.names, n ≠ "" → m ≠ "" → n ≠ m →
    Text.Apart n.toList m.toList))

instance (t : Variables) : Decidable t.ValuesForeign :=
  inferInstanceAs (Decidable (∀ v ∈ t.slots, v.name ≠ "" →
    v.current ≠ "" ∧ ∀ n ∈ t.names, Text.Foreign v.current.toList n.toList))

theorem pass_comm {t : Variables} (hnames : t.NamesApart) (hvalues : t.ValuesForeign)
    {v w : Variable} (hv : v ∈ t.slots) (hw : w ∈ t.slots) (text : List Char) :
    pass (pass text v) w = pass (pass text w) v := by
  by_cases hvname : v.name = ""
  · rw [pass_nameless hvname, pass_nameless hvname]
  by_cases hwname : w.name = ""
  · rw [pass_nameless hwname, pass_nameless hwname]
  by_cases hsame : v.name = w.name
  · rw [List.inj_on_of_nodup_map t.distinct hv hw hsame]
  have hvn : v.name ∈ t.names := List.mem_map_of_mem hv
  have hwn : w.name ∈ t.names := List.mem_map_of_mem hw
  obtain ⟨hvvalue, hvforeign⟩ := hvalues v hv hvname
  obtain ⟨hwvalue, hwforeign⟩ := hvalues w hw hwname
  exact Text.replaceAll_comm (by simpa using hvname) (by simpa using hwname)
    (by simpa using hvvalue) (by simpa using hwvalue)
    (hnames _ hvn _ hwn hvname hwname hsame) (hnames _ hwn _ hvn hwname hvname (Ne.symm hsame))
    (hvforeign _ hwn) (hwforeign _ hvn) text

end Variables

/-- Tables with the same variables in any two orders replace a text in the same way, if no
occurrences of different names can touch each other and the values are foreign to the names. -/
theorem substitution_ignores_order (t u : Variables) (hsame : t.slots.Perm u.slots)
    (hnames : t.NamesApart) (hvalues : t.ValuesForeign) (text : String) :
    t.substitute text = u.substitute text := by
  rw [Variables.substitute_pass, Variables.substitute_pass]
  congr 1
  exact hsame.foldl_eq' (fun v hv w hw text => Variables.pass_comm hnames hvalues hv hw text) _

/-- The first name overlaps itself, and the last variable has no name. -/
def menagerie : Variables where
  slots := [⟨"aba", "", "1"⟩, ⟨"$cat", "", "--"⟩, ⟨"", "", "a$"⟩]
  distinct := by decide

def menagerieReversed : Variables where
  slots := menagerie.slots.reverse
  distinct := by decide

theorem menagerie_ignores_order :
    menagerie.slots.Perm menagerieReversed.slots ∧ menagerie.NamesApart ∧
      menagerie.ValuesForeign ∧ menagerie.substitute "ababa$$catab" = "1ba$--ab" ∧
      menagerieReversed.substitute "ababa$$catab" = "1ba$--ab" := by
  have hsame : menagerie.slots.Perm menagerieReversed.slots := (List.reverse_perm _).symm
  have hnames : menagerie.NamesApart := by decide +kernel
  have hvalues : menagerie.ValuesForeign := by decide +kernel
  have htext : menagerie.substitute "ababa$$catab" = "1ba$--ab" := by decide +kernel
  have h := substitution_ignores_order menagerie menagerieReversed hsame hnames hvalues
    "ababa$$catab"
  exact ⟨hsame, hnames, hvalues, htext, h ▸ htext⟩

end Storyline

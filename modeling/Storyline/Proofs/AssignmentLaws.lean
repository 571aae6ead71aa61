import Storyline.Proofs.OperatorFaults
import Storyline.Proofs.TableHistory

/-! # What an assignment does

An assignment fails for an unknown variable, else for an unknown operator, else for an operator that
needs numbers where a text is none; then nothing has changed. Any other assignment gives its
variable the value that the operation makes, and changes nothing else.
-/
namespace Storyline

namespace Variables

variable {t : Variables} {a : Assignment} {v : Variable}

theorem target_known (hv : v ∈ t.slots) (hname : v.name = a.target) : a.target ∈ t.names :=
  List.mem_map.mpr ⟨v, hv, hname⟩

theorem attempt_failed {fault : Fault} (h : t.assign a = .error fault) : t.attempt a = t := by
  simp only [attempt, h]

end Variables

/-- The step is a number with blanks around it, and the title is no number. -/
def satchel : Variables where
  slots := [⟨"gold", "10", "1e1"⟩, ⟨"step", "2", " 2.5 "⟩, ⟨"title", "", "Sir "⟩]
  distinct := by decide

end Storyline

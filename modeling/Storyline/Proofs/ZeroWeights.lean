import Storyline.Proofs.DrawnRoute

/-! # Routes of weight zero

A route of weight zero adds nothing, so no sample comes to be exceeded by it: it can only be drawn
as the last usable route, when the sample is not less than the whole sum. Rounding brings that about
if the sum is infinite or at most 2⁻¹⁰²², and for no other sum.
-/
namespace Storyline

open Number

/-- 2⁻¹⁰²², the least number of full precision. -/
def leastNormal : Binary64 := .round false (Nat.pow 2 52) 1

example : leastNormal.bits? = some 0x0010000000000000 := by decide +kernel

namespace Variables

def Heavy (t : Variables) (r : ChanceRoute) : Prop :=
  ∃ w, Binary64.read (t.substitute r.weight) = some w ∧ w.isFinite ∧ (Binary64.zero false).lt w

theorem heavy_iff {t : Variables} {r : ChanceRoute} :
    t.Heavy r ↔ (Binary64.read (t.substitute r.weight)).any fun w =>
      w.isFinite && (Binary64.zero false).lt w := by
  unfold Heavy
  cases Binary64.read (t.substitute r.weight) <;> simp

instance (t : Variables) (r : ChanceRoute) : Decidable (t.Heavy r) :=
  decidable_of_iff' _ heavy_iff

/-- The sum of the weights has full precision and is finite. -/
def Ordinary (t : Variables) (routes : List ChanceRoute) : Prop :=
  (t.total routes).isFinite ∧ leastNormal.lt (t.total routes)

/-- The sample is not less than the whole sum, and the last usable route is drawn. -/
def FallsBack (t : Variables) (routes : List ChanceRoute) (source : RandomSource) : Prop :=
  (t.sample routes source).lt (t.total routes) = false ∧
    ∃ r, (t.usable routes).getLast? = some r ∧ (drawRoute t routes source).1 = .ok r.target

variable {t : Variables} {routes : List ChanceRoute} {source : RandomSource}

theorem Heavy.usable {r : ChanceRoute} (h : t.Heavy r) : t.Usable r := by
  obtain ⟨w, hread, hfinite, hpos⟩ := h
  exact ⟨w, hread, hfinite, Binary64.le_of_lt hpos⟩

theorem weighted_of_heavy (h : ∃ r ∈ routes, t.Heavy r) : t.weighted routes ≠ [] := by
  obtain ⟨r, hr, hheavy⟩ := h
  exact weighted_ne_nil hr (usable_iff.mp hheavy.usable)

theorem heavy_of_moves {r : ChanceRoute} {w sum : Binary64} {a : Nat} (hw : t.weight? r = some w)
    (ha : sum.At a) (hbefore : (t.sample routes source).lt sum = false)
    (hafter : (t.sample routes source).lt (sum.add w) = true) : t.Heavy r := by
  obtain ⟨n, _, hn⟩ := weight_at hw
  obtain ⟨hread, husable⟩ := Option.filter_eq_some_iff.mp hw
  rw [Bool.and_eq_true] at husable
  have hpos : 0 < n := by
    by_contra hzero
    obtain rfl : n = 0 := by omega
    have h := sample_lt_of_le (Binary64.add_zero_at ha hn) ha le_rfl hafter
    rw [hbefore] at h
    cases h
  exact ⟨w, hread, husable.1, ((Binary64.zero_at false).lt_iff hn).mpr hpos⟩

theorem drawn_last {before : List (Binary64 × NodeId)} {w : Binary64} {id : NodeId}
    (h : t.weighted routes = before ++ [(w, id)]) :
    ∃ r, (t.usable routes).getLast? = some r ∧ r.target = id := by
  have hlast : ((t.usable routes).map (·.target)).getLast? = some id := by
    rw [← weighted_targets, h]
    simp
  rwa [List.getLast?_map, Option.map_eq_some_iff] at hlast

theorem draw_heavy_or_fallsBack (h : t.weighted routes ≠ []) (source : RandomSource) :
    (∃ r ∈ routes, t.Heavy r ∧ (drawRoute t routes source).1 = .ok r.target) ∨
      t.FallsBack routes source := by
  obtain ⟨before, w, id, after, hsplit, hdraw, hbefore, hlt | ⟨rfl, hlast⟩⟩ :=
    drawRoute_split h source
  · have hmem : (w, id) ∈ t.weighted routes := by simp [hsplit]
    obtain ⟨r, hr, rfl, hw⟩ := weighted_target hmem
    have hall : ∀ x ∈ before, ∃ n, x.1.At n := fun x hx =>
      t.weighted_all_at routes x (by simp [hsplit, hx])
    obtain ⟨a, _, ha⟩ := sumFrom_at (Binary64.zero_at false) hall
    rw [sumFrom_append] at hlt
    exact Or.inl ⟨r, hr, heavy_of_moves hw ha hbefore hlt, hdraw⟩
  · obtain ⟨r, hr, rfl⟩ := drawn_last hsplit
    exact Or.inr ⟨hlast, r, hr, hdraw⟩

theorem fallsBack_of_not_lt (h : t.weighted routes ≠ [])
    (hnot : (t.sample routes source).lt (t.total routes) = false) : t.FallsBack routes source := by
  obtain ⟨before, w, id, after, hsplit, hdraw, _, hlt | ⟨rfl, _⟩⟩ := drawRoute_split h source
  · have hwhole : t.weighted routes = before ++ [(w, id)] ++ after := by
      rw [hsplit, List.append_assoc, List.singleton_append]
    have hall := t.weighted_all_at routes
    rw [hwhole] at hall
    rw [total, hwhole, sample_lt_append hall hlt] at hnot
    cases hnot
  · obtain ⟨r, hr, rfl⟩ := drawn_last hsplit
    exact ⟨hnot, r, hr, hdraw⟩

theorem leastNormal_at : leastNormal.At (2 ^ 52) := by
  unfold Binary64.At
  decide +kernel

theorem ordinary_iff {n : Nat} (hn : (t.total routes).At n) :
    t.Ordinary routes ↔ 2 ^ 52 < n ∧ n < unitLimit := by
  rw [Ordinary, leastNormal_at.lt_iff hn, and_comm]
  refine and_congr_right fun _ => ?_
  rcases hn.cases with ⟨s, size, hx, hsize, _⟩ | ⟨hx, hlimit⟩
  · simp [hx, Binary64.isFinite, ← hsize, size.bounded]
  · simp [hx, Binary64.isFinite, hlimit]

theorem Ordinary.sample_lt (h : t.Ordinary routes) (source : RandomSource) :
    (t.sample routes source).lt (t.total routes) = true := by
  obtain ⟨n, hn⟩ := t.total_at routes
  obtain ⟨hlow, hhigh⟩ := (ordinary_iff hn).mp h
  have hsteps := source.nextSteps_lt
  refine ((sample_at hn hhigh source).lt_iff hn).mpr (lt_of_le_of_lt (Nat.min_le_left _ _) ?_)
  refine toGrid_lt unitsPerOne_pos hn.onGrid hlow ?_
  rw [RandomSource.steps_mul]
  exact Nat.mul_le_mul_right _ (by omega)

theorem steps_greatest : RandomSource.steps 0xFFFFFFFFFFFFFFFF = 2 ^ 53 - 1 := by decide +kernel

theorem not_lt_of_greatest (h : ¬ t.Ordinary routes)
    (hword : source.word source.taken = 0xFFFFFFFFFFFFFFFF) :
    (t.sample routes source).lt (t.total routes) = false := by
  obtain ⟨n, hn⟩ := t.total_at routes
  rw [ordinary_iff hn] at h
  rcases Nat.lt_or_eq_of_le hn.le_limit with hhigh | hlimit
  · have hsmall : n ≤ 2 ^ 52 := by
      by_contra hlow
      exact h ⟨by omega, hhigh⟩
    refine Bool.eq_false_iff.mpr fun hlt => ?_
    have hless := ((sample_at hn hhigh source).lt_iff hn).mp hlt
    rw [RandomSource.nextSteps, hword, steps_greatest] at hless
    have hreached : n ≤ toGrid ((2 ^ 53 - 1) * RandomSource.unitsPerStep * n) unitsPerOne := by
      refine le_toGrid_of_small unitsPerOne_pos hsmall ?_
      rw [RandomSource.steps_mul]
    exact absurd hless (Nat.not_lt.mpr (Nat.le_min.mpr ⟨hreached, hhigh.le⟩))
  · rcases Binary64.mul_at_limit (RandomSource.fraction_at (source.word source.taken))
      (RandomSource.steps_bounded _) (hlimit ▸ hn) with hnan | hinfinite
    · rw [sample, hnan, Binary64.nan_lt]
    · refine Bool.eq_false_iff.mpr fun hlt => ?_
      exact absurd ((hinfinite.lt_iff hn).mp hlt) (Nat.not_lt.mpr hn.le_limit)

end Variables

/-- Where a route has a weight greater than zero, such a route is drawn, or else the draw falls back
to the last usable route, whatever its weight. Some word makes it fall back exactly if the sum of
the weights is infinite or not greater than 2⁻¹⁰²². -/
theorem weightless_drawn_only_by_fallback (t : Variables) (routes : List ChanceRoute)
    (h : ∃ r ∈ routes, t.Heavy r) :
    (∀ source, (∃ r ∈ routes, t.Heavy r ∧ (drawRoute t routes source).1 = .ok r.target) ∨
      t.FallsBack routes source) ∧
    ((∃ source, t.FallsBack routes source) ↔ ¬ t.Ordinary routes) := by
  have hne := Variables.weighted_of_heavy h
  refine ⟨fun source => Variables.draw_heavy_or_fallsBack hne source, ?_, ?_⟩
  · rintro ⟨source, hnot, _⟩ hordinary
    rw [hordinary.sample_lt source] at hnot
    cases hnot
  · intro hother
    let greatest : RandomSource := ⟨fun _ => 0xFFFFFFFFFFFFFFFF, 0⟩
    exact ⟨greatest, Variables.fallsBack_of_not_lt hne (Variables.not_lt_of_greatest hother rfl)⟩

/-- Of the greatest word the sample is not less than the sum, if the sum is the least number. -/
theorem weightless_route_drawn :
    ¬ ∀ (t : Variables) (routes : List ChanceRoute) (source : RandomSource),
      (∃ r ∈ routes, t.Heavy r) →
        ∃ r ∈ routes, t.Heavy r ∧ (drawRoute t routes source).1 = .ok r.target := by
  intro h
  have hheavy : ∃ r ∈ [⟨"5e-324", 10⟩, ⟨"0", 20⟩], noVariables.Heavy r := by decide +kernel
  obtain ⟨r, hr, hweight, hdraw⟩ := h noVariables [⟨"5e-324", 10⟩, ⟨"0", 20⟩]
    (.cycle #[0xFFFFFFFFFFFFFFFF]) hheavy
  have hdrawn : (drawRoute noVariables [⟨"5e-324", 10⟩, ⟨"0", 20⟩]
      (.cycle #[0xFFFFFFFFFFFFFFFF])).1 = .ok 20 := by decide +kernel
  have htarget : r.target = 20 := by simpa [hdraw] using hdrawn
  have hnone : ∀ r ∈ [⟨"5e-324", 10⟩, ⟨"0", 20⟩], r.target = 20 → ¬ noVariables.Heavy r := by
    decide +kernel
  exact hnone r hr htarget hweight

/-- With routes of weight zero on both sides, the greatest word still draws the middle one. -/
theorem middle_drawn_by_greatest :
    (∃ r ∈ [⟨"0", 1⟩, ⟨"1", 2⟩, ⟨"-0", 3⟩], noVariables.Heavy r) ∧
      (drawRoute noVariables [⟨"0", 1⟩, ⟨"1", 2⟩, ⟨"-0", 3⟩] (.cycle #[0xFFFFFFFFFFFFFFFF])).1 =
        .ok 2 := by
  have hheavy : ∃ r ∈ [⟨"0", 1⟩, ⟨"1", 2⟩, ⟨"-0", 3⟩], noVariables.Heavy r := by decide +kernel
  have hordinary : noVariables.Ordinary [⟨"0", 1⟩, ⟨"1", 2⟩, ⟨"-0", 3⟩] := by
    unfold Variables.Ordinary
    decide +kernel
  have hone : ∀ r ∈ [⟨"0", 1⟩, ⟨"1", 2⟩, ⟨"-0", 3⟩], noVariables.Heavy r → r.target = 2 := by
    decide +kernel
  obtain ⟨hdraws, hfalls⟩ := weightless_drawn_only_by_fallback noVariables _ hheavy
  rcases hdraws (.cycle #[0xFFFFFFFFFFFFFFFF]) with ⟨r, hr, hweight, hdraw⟩ | hback
  · exact ⟨hheavy, by rw [hdraw, hone r hr hweight]⟩
  · exact absurd hordinary (hfalls.mp ⟨_, hback⟩)

end Storyline

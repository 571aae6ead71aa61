import Storyline.Proofs.DrawnRoute

/-! # Greater words draw later routes

Rounding keeps order: of a greater word the sample is not less, and where it is less than a sum, so
is that of every smaller word. If the weights add up to infinity no sample is less than any sum, and
every word draws the last usable route.
-/
namespace Storyline

open Number

namespace Variables

/-- The place in the list of the route where a draw ends: the usable weights before it come to no
more than the sample, and with its own they exceed the sample, or else no usable route follows. -/
structure EndsAt (t : Variables) (routes : List ChanceRoute) (source : RandomSource) (i : Nat) :
    Prop where
  usable : ∃ r, routes[i]? = some r ∧ t.Usable r
  reached : (t.sample routes source).lt (t.total (routes.take i)) = false
  exceeded : (t.sample routes source).lt (t.total (routes.take (i + 1))) = true ∨
    ∀ r ∈ routes.drop (i + 1), ¬ t.Usable r

variable {t : Variables} {routes : List ChanceRoute} {first second source : RandomSource}

theorem steps_mono (h : first.word first.taken ≤ second.word second.taken) :
    first.nextSteps ≤ second.nextSteps := by
  rw [RandomSource.nextSteps, RandomSource.steps_eq, RandomSource.nextSteps, RandomSource.steps_eq]
  exact Nat.div_le_div_right (UInt64.le_iff_toNat_le.mp h)

theorem sample_infinite (h : (t.total routes).At unitLimit) {x : Binary64} {a : Nat} (hx : x.At a) :
    (t.sample routes source).lt x = false := by
  rcases Binary64.mul_at_limit (RandomSource.fraction_at (source.word source.taken))
    (RandomSource.steps_bounded _) h with hnan | hlimit
  · rw [sample, hnan, Binary64.nan_lt]
  · refine Bool.eq_false_iff.mpr fun hlt => ?_
    have hless := (hlimit.lt_iff hx).mp hlt
    exact absurd hx.le_limit (Nat.not_le.mpr hless)

theorem sample_lt_of_word_le (h : first.word first.taken ≤ second.word second.taken)
    {x : Binary64} {a : Nat} (hx : x.At a) (hlt : (t.sample routes second).lt x = true) :
    (t.sample routes first).lt x = true := by
  obtain ⟨n, hn⟩ := t.total_at routes
  rcases Nat.lt_or_eq_of_le hn.le_limit with hfinite | hlimit
  · have hsecond := ((sample_at hn hfinite second).lt_iff hx).mp hlt
    have hproduct : first.nextSteps * RandomSource.unitsPerStep * n ≤
        second.nextSteps * RandomSource.unitsPerStep * n :=
      Nat.mul_le_mul_right _ (Nat.mul_le_mul_right _ (steps_mono h))
    have hsample := min_le_min_right unitLimit (toGrid_mono unitsPerOne_pos hproduct)
    exact ((sample_at hn hfinite first).lt_iff hx).mpr (hsample.trans_lt hsecond)
  · rw [sample_infinite (hlimit ▸ hn) hx] at hlt
    cases hlt

theorem EndsAt.le {i j : Nat} (hi : t.EndsAt routes first i) (hj : t.EndsAt routes second j)
    (h : first.word first.taken ≤ second.word second.taken) : i ≤ j := by
  by_contra hbehind
  have hij : j + 1 ≤ i := by omega
  rcases hj.exceeded with hlt | hlast
  · obtain ⟨n, hn⟩ := t.total_at (routes.take (j + 1))
    have hfirst := sample_lt_of_prefix (List.take_prefix_take_left hij)
      (sample_lt_of_word_le h hn hlt)
    rw [hi.reached] at hfirst
    cases hfirst
  · obtain ⟨r, hr, hu⟩ := hi.usable
    refine hlast r ?_ hu
    refine List.mem_iff_getElem?.mpr ⟨i - (j + 1), ?_⟩
    rw [List.getElem?_drop, Nat.add_sub_cancel' hij]
    exact hr

theorem weighted_cut {before after : List (Binary64 × NodeId)} {w : Binary64} {id : NodeId}
    (h : t.weighted routes = before ++ (w, id) :: after) :
    ∃ front r back, routes = front ++ r :: back ∧ t.weighted front = before ∧
      t.weight? r = some w ∧ r.target = id ∧ t.weighted back = after := by
  obtain ⟨front, rest, rfl, hfront, hrest⟩ := List.filterMap_eq_append_iff.mp h
  obtain ⟨idle, r, back, rfl, hidle, hr, hback⟩ := List.filterMap_eq_cons_iff.mp hrest
  obtain ⟨v, hv, hpair⟩ := Option.map_eq_some_iff.mp hr
  obtain ⟨rfl, rfl⟩ := Prod.mk.inj hpair
  have hnone : t.weighted idle = [] := List.filterMap_eq_nil_iff.mpr hidle
  refine ⟨front ++ idle, r, back, (List.append_assoc ..).symm, ?_, hv, rfl, hback⟩
  rw [weighted_append, hnone, List.append_nil]
  exact hfront

theorem draw_ends (h : ∃ r ∈ routes, t.Usable r) (source : RandomSource) :
    ∃ i r, t.EndsAt routes source i ∧ routes[i]? = some r ∧
      drawRoute t routes source = (.ok r.target, { source with taken := source.taken + 1 }) := by
  obtain ⟨r, hr, hu⟩ := h
  have hne := weighted_ne_nil hr (usable_iff.mp hu)
  obtain ⟨before, w, id, after, hsplit, hdraw, hreached, hexceeded⟩ := drawRoute_split hne source
  obtain ⟨front, drawn, back, hroutes, hfront, hw, rfl, hback⟩ := weighted_cut hsplit
  have hdrawn : routes[front.length]? = some drawn := by simp [hroutes]
  have htake : routes.take front.length = front := by simp [hroutes]
  have htakeWith : routes.take (front.length + 1) = front ++ [drawn] := by
    simp [hroutes, List.take_append]
  have hdrop : routes.drop (front.length + 1) = back := by simp [hroutes, List.drop_append]
  have hwith : t.weighted (front ++ [drawn]) = before ++ [(w, drawn.target)] := by
    rw [weighted_append, hfront, weighted_cons, hw]
    rfl
  refine ⟨front.length, drawn, ⟨⟨drawn, hdrawn, usable_iff.mpr (by simp [hw])⟩, ?_, ?_⟩, hdrawn, ?_⟩
  · rw [htake, total, hfront]
    exact hreached
  · rw [htakeWith, hdrop, total, hwith]
    refine hexceeded.imp_right fun hlast => ?_
    rw [← weighted_eq_nil_iff, hback]
    exact hlast.1
  · rcases drawRoute_cases t routes source with ⟨hnone, _⟩ | ⟨_, other, _, hd⟩
    · exact absurd hnone hne
    · rw [hd] at hdraw
      cases hdraw
      exact hd

end Variables

/-- A draw fails and takes no word exactly if no route has a usable weight. Otherwise it takes one
word and leads to a usable route, whose place in the list does not come down when the word goes
up. -/
theorem draws_keep_order (t : Variables) (routes : List ChanceRoute) :
    (∀ source, drawRoute t routes source = (.error .noUsableRoute, source) ↔
      ∀ r ∈ routes, ¬ t.Usable r) ∧
    (∀ source, (∃ r ∈ routes, t.Usable r) → ∃ i r, t.EndsAt routes source i ∧
      routes[i]? = some r ∧
      drawRoute t routes source = (.ok r.target, { source with taken := source.taken + 1 })) ∧
    ∀ first second : RandomSource, first.word first.taken ≤ second.word second.taken →
      ∀ i j, t.EndsAt routes first i → t.EndsAt routes second j → i ≤ j := by
  refine ⟨fun source => ⟨fun hfail r hr hu => ?_, fun hnone => drawRoute_fails hnone source⟩,
    fun source h => Variables.draw_ends h source, fun _ _ h _ _ hi hj => hi.le hj h⟩
  obtain ⟨_, _, _, _, hdraw⟩ := Variables.draw_ends ⟨r, hr, hu⟩ source
  cases hfail.symm.trans hdraw

/-- The weights add up to infinity, of which the word 0 gives a sample that is no number. -/
def goldmine : List ChanceRoute := [⟨"1e308", 1⟩, ⟨"lots", 2⟩, ⟨"1e308", 3⟩, ⟨"-1", 4⟩]

theorem goldmine_keeps_order :
    let least : RandomSource := .cycle #[0]
    let greatest : RandomSource := .cycle #[0xFFFFFFFFFFFFFFFF]
    (∃ i j, noVariables.EndsAt goldmine least i ∧ noVariables.EndsAt goldmine greatest j ∧ i ≤ j) ∧
      (drawRoute noVariables goldmine least).1 = .ok 3 ∧
      (drawRoute noVariables goldmine greatest).2.taken = 1 ∧
      drawRoute noVariables [⟨"lots", 2⟩, ⟨"-1", 4⟩] least = (.error .noUsableRoute, least) := by
  intro least greatest
  have husable : ∃ r ∈ goldmine, noVariables.Usable r := by decide +kernel
  have hnone : ∀ r ∈ [⟨"lots", 2⟩, ⟨"-1", 4⟩], ¬ noVariables.Usable r := by decide +kernel
  have hlast : (drawRoute noVariables goldmine least).1 = .ok 3 := by decide +kernel
  obtain ⟨_, hends, horder⟩ := draws_keep_order noVariables goldmine
  obtain ⟨i, _, hi, _⟩ := hends least husable
  obtain ⟨j, _, hj, _, hdraw⟩ := hends greatest husable
  refine ⟨⟨i, j, hi, hj, horder least greatest (by decide) i j hi hj⟩, hlast, ?_, ?_⟩
  · rw [hdraw]
    rfl
  · exact (draws_keep_order noVariables _).1 least |>.mpr hnone

end Storyline

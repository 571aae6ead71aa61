import Storyline.Routing

/-! # Which routes are taken

A conditional node leads to the target of one of its routes or to its fallback. A draw answers the
target of a route with a usable weight, and fails without taking a word exactly when there is none.
-/
namespace Storyline

namespace Variables

theorem route_mem {t : Variables} {routes : List GuardedRoute} {fallback : Option NodeId}
    {id : NodeId} (h : t.route routes fallback = some id) :
    id ∈ (Transit.conditional routes fallback).links := by
  simp only [Transit.links, List.mem_append, List.mem_map, Option.mem_toList]
  unfold route at h
  split at h
  · next r hr =>
    have hm := List.mem_of_getLast? hr
    exact Or.inl ⟨r, (List.mem_filter.mp hm).1, by simpa using h⟩
  · exact Or.inr h

theorem route_found {t : Variables} {routes : List GuardedRoute} {fallback : Option NodeId}
    (h : fallback.isSome) : ∃ id, t.route routes fallback = some id := by
  unfold route
  split
  · exact ⟨_, rfl⟩
  · exact Option.isSome_iff_exists.mp h

theorem weighted_target {t : Variables} {routes : List ChanceRoute} {w : Number.Binary64}
    {id : NodeId} (h : (w, id) ∈ t.weighted routes) :
    ∃ r ∈ routes, r.target = id ∧ t.weight? r = some w := by
  simp only [weighted, List.mem_filterMap, Option.map_eq_some_iff, Prod.mk.injEq] at h
  obtain ⟨r, hr, w', hw, rfl, rfl⟩ := h
  exact ⟨r, hr, rfl, hw⟩

theorem weighted_ne_nil {t : Variables} {routes : List ChanceRoute} {r : ChanceRoute}
    (hr : r ∈ routes) (hw : (t.weight? r).isSome) : t.weighted routes ≠ [] := by
  obtain ⟨w, hw⟩ := Option.isSome_iff_exists.mp hw
  have hm : (w, r.target) ∈ t.weighted routes :=
    List.mem_filterMap.mpr ⟨r, hr, by simp [hw]⟩
  exact List.ne_nil_of_mem hm

end Variables

theorem pick_mem (sample reached : Number.Binary64) (route : Number.Binary64 × NodeId)
    (rest : List (Number.Binary64 × NodeId)) :
    ∃ w, (w, pick sample reached route rest) ∈ route :: rest := by
  induction rest generalizing reached route with
  | nil => exact ⟨route.1, List.mem_singleton.mpr rfl⟩
  | cons next rest ih =>
    unfold pick
    split
    · exact ⟨route.1, List.mem_cons_self⟩
    · obtain ⟨w, hw⟩ := ih (reached.add route.1) next
      exact ⟨w, List.mem_cons_of_mem _ hw⟩

theorem drawRoute_cases (t : Variables) (routes : List ChanceRoute) (source : RandomSource) :
    (t.weighted routes = [] ∧ drawRoute t routes source = (.error .noUsableRoute, source)) ∨
    (∃ w id, (w, id) ∈ t.weighted routes ∧
      drawRoute t routes source = (.ok id, source.draw.2)) := by
  cases h : t.weighted routes with
  | nil => exact Or.inl ⟨rfl, by simp [drawRoute, h]⟩
  | cons first rest =>
    obtain ⟨w, hw⟩ := pick_mem (source.draw.1.mul ((first :: rest).foldl
      (fun sum route => sum.add route.1) (.zero false))) (.zero false) first rest
    exact Or.inr ⟨w, _, hw, by simp [drawRoute, h]⟩

theorem drawRoute_mem {t : Variables} {routes : List ChanceRoute} {source source' : RandomSource}
    {id : NodeId} (h : drawRoute t routes source = (.ok id, source')) :
    id ∈ (Transit.probability routes).links := by
  rcases drawRoute_cases t routes source with ⟨_, he⟩ | ⟨w, id', hm, he⟩
  · simp [he] at h
  · obtain ⟨r, hr, ht, _⟩ := Variables.weighted_target hm
    simp only [he, Prod.mk.injEq, Except.ok.injEq] at h
    exact List.mem_map.mpr ⟨r, hr, ht.trans h.1⟩

theorem drawRoute_failed {t : Variables} {routes : List ChanceRoute} {source : RandomSource}
    {fault : Fault} (h : (drawRoute t routes source).1 = .error fault) :
    t.weighted routes = [] ∧ (drawRoute t routes source).2 = source := by
  rcases drawRoute_cases t routes source with ⟨hw, he⟩ | ⟨w, id, _, he⟩
  · exact ⟨hw, by simp [he]⟩
  · simp [he] at h

end Storyline

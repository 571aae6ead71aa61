import Storyline.Proofs.RouteChoice

/-! # The last open route

A conditional node looks at all its routes in order, and an open one replaces whatever was found
before it. So the last open route decides, whatever stands before it, and the fallback only where
no route is open.
-/
namespace Storyline

namespace Variables

variable {t : Variables} {routes before after : List GuardedRoute} {r : GuardedRoute}
  {fallback : Option NodeId}

def follow (t : Variables) (found : Option NodeId) (r : GuardedRoute) : Option NodeId :=
  if t.opens r then some r.target else found

theorem route_follow (t : Variables) (routes : List GuardedRoute) (fallback : Option NodeId) :
    t.route routes fallback = routes.foldl t.follow fallback := by
  induction routes generalizing fallback with
  | nil => rfl
  | cons r rest ih =>
    rw [List.foldl_cons, ← ih]
    unfold route follow
    by_cases h : t.opens r
    · rw [List.filter_cons_of_pos h, if_pos h, List.getLast?_cons]
      cases (rest.filter t.opens).getLast? <;> rfl
    · rw [List.filter_cons_of_neg h, if_neg h]

theorem route_append : t.route (before ++ after) fallback =
    t.route after (t.route before fallback) := by
  simp only [route_follow, List.foldl_append]

theorem route_open (h : t.opens r) : t.route (r :: after) fallback =
    t.route after (some r.target) := by
  rw [route_follow, route_follow, List.foldl_cons, follow, if_pos h]

theorem route_closed (h : ∀ r ∈ routes, ¬ t.opens r) : t.route routes fallback = fallback := by
  rw [route_follow]
  induction routes with
  | nil => rfl
  | cons r rest ih =>
    rw [List.foldl_cons, follow, if_neg (h r List.mem_cons_self)]
    exact ih fun q hq => h q (List.mem_cons_of_mem r hq)

theorem exists_last_open (h : ∃ r ∈ routes, t.opens r) :
    ∃ before r after, routes = before ++ r :: after ∧ t.opens r ∧ ∀ q ∈ after, ¬ t.opens q := by
  induction routes with
  | nil => simp at h
  | cons r rest ih =>
    by_cases hrest : ∃ q ∈ rest, t.opens q
    · obtain ⟨before, q, after, rfl, hq, hafter⟩ := ih hrest
      exact ⟨r :: before, q, after, rfl, hq, hafter⟩
    · refine ⟨[], r, rest, rfl, ?_, fun q hq hopen => hrest ⟨q, hq, hopen⟩⟩
      obtain ⟨q, hq, hopen⟩ := h
      rcases List.mem_cons.mp hq with rfl | hlater
      · exact hopen
      · exact absurd ⟨q, hlater, hopen⟩ hrest

theorem route_last_open (h : t.opens r) (hafter : ∀ q ∈ after, ¬ t.opens q) :
    t.route (before ++ r :: after) fallback = some r.target := by
  rw [route_append, route_open h, route_closed hafter]

theorem satisfies_iff {c : Comparison} : t.satisfies c = true ↔ t.compare c = .ok true := by
  unfold satisfies
  cases t.compare c <;> simp

theorem opens_all_iff {comparisons : List Comparison} {target : NodeId} :
    t.opens ⟨comparisons, .all, target⟩ = true ↔ ∀ c ∈ comparisons, t.compare c = .ok true := by
  simp only [opens, RouteMode.admits, List.all_eq_true, satisfies_iff]

theorem opens_any_iff {comparisons : List Comparison} {target : NodeId} :
    t.opens ⟨comparisons, .any, target⟩ = true ↔ ∃ c ∈ comparisons, t.compare c = .ok true := by
  simp only [opens, RouteMode.admits, List.any_eq_true, satisfies_iff]

theorem opens_none_iff {comparisons : List Comparison} {target : NodeId} :
    t.opens ⟨comparisons, .none, target⟩ = true ↔ ¬ t.opens ⟨comparisons, .any, target⟩ = true := by
  simp only [opens, RouteMode.admits, Bool.not_eq_true', Bool.not_eq_true]

end Variables

/-- The last open route is taken, or the fallback if none is open. So an open route at the end
decides alone, closed routes make no difference anywhere, and neither does what stands before an
open route. -/
theorem last_open_route_taken (t : Variables) (routes : List GuardedRoute)
    (fallback : Option NodeId) :
    ((∃ r ∈ routes, t.opens r) → ∃ before r after, routes = before ++ r :: after ∧ t.opens r ∧
      (∀ q ∈ after, ¬ t.opens q) ∧ t.route routes fallback = some r.target) ∧
    ((∀ r ∈ routes, ¬ t.opens r) → t.route routes fallback = fallback) ∧
    (∀ comparisons target,
      (t.opens ⟨comparisons, .all, target⟩ ↔ ∀ c ∈ comparisons, t.compare c = .ok true) ∧
      (t.opens ⟨comparisons, .any, target⟩ ↔ ∃ c ∈ comparisons, t.compare c = .ok true) ∧
      (t.opens ⟨comparisons, .none, target⟩ ↔ ¬ t.opens ⟨comparisons, .any, target⟩)) ∧
    (∀ r, t.opens r → t.route (routes ++ [r]) fallback = some r.target) ∧
    (∀ before closed after, routes = before ++ after → (∀ r ∈ closed, ¬ t.opens r) →
      t.route (before ++ closed ++ after) fallback = t.route routes fallback) ∧
    ∀ before r after, routes = before ++ r :: after → t.opens r → ∀ others otherFallback,
      t.route (others ++ r :: after) otherFallback = t.route routes fallback := by
  refine ⟨fun h => ?_, Variables.route_closed, fun comparisons target => ?_, fun r hr => ?_, ?_, ?_⟩
  · obtain ⟨before, r, after, rfl, hr, hafter⟩ := Variables.exists_last_open h
    exact ⟨before, r, after, rfl, hr, hafter, Variables.route_last_open hr hafter⟩
  · exact ⟨Variables.opens_all_iff, Variables.opens_any_iff, Variables.opens_none_iff⟩
  · exact Variables.route_last_open hr nofun
  · rintro before closed after rfl hclosed
    rw [Variables.route_append, Variables.route_append, Variables.route_closed hclosed,
      Variables.route_append]
  · rintro before r after rfl hr others otherFallback
    rw [Variables.route_append, Variables.route_append, Variables.route_open hr,
      Variables.route_open hr]

def rainy : Variables where
  slots := [⟨"weather", "sun", "rain"⟩]
  distinct := by decide

/-- There is no wind to compare, so the second route is open. -/
def calm : GuardedRoute := ⟨[⟨"wind", ">", "3"⟩], .none, 7⟩

/-- The last comparison fails for want of a number. -/
def crossroads : List GuardedRoute :=
  [⟨[⟨"weather", "=", "rain"⟩], .any, 5⟩, calm, ⟨[⟨"weather", "<", "3"⟩], .all, 8⟩]

theorem crossroads_last_taken :
    rainy.opens calm ∧ rainy.route crossroads (some 9) = some 7 ∧
      rainy.route (crossroads.drop 1) none = some 7 ∧
      rainy.route (crossroads.drop 2) (some 9) = some 9 ∧
      ∃ before r after, crossroads = before ++ r :: after ∧ rainy.opens r ∧
        (∀ q ∈ after, ¬ rainy.opens q) ∧ rainy.route crossroads (some 9) = some r.target := by
  have hfirst : rainy.opens calm := by decide +kernel
  have hclosed : ∀ r ∈ crossroads.drop 2, ¬ rainy.opens r := by decide +kernel
  obtain ⟨hlast, _, _, _, _, hbefore⟩ := last_open_route_taken rainy crossroads (some 9)
  have happended := (last_open_route_taken rainy (crossroads.take 1) (some 9)).2.2.2.1 calm hfirst
  have hinserted := (last_open_route_taken rainy (crossroads.take 2) (some 9)).2.2.2.2.1
    (crossroads.take 2) (crossroads.drop 2) [] rfl hclosed
  have htaken : rainy.route crossroads (some 9) = some 7 := hinserted.trans happended
  have hshort := hbefore (crossroads.take 1) calm (crossroads.drop 2) rfl hfirst [] none
  have hnone := (last_open_route_taken rainy (crossroads.drop 2) (some 9)).2.1 hclosed
  exact ⟨hfirst, htaken, hshort.trans htaken, hnone, hlast ⟨calm, by decide, hfirst⟩⟩

end Storyline

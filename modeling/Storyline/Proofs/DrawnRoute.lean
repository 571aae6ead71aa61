import Storyline.Proofs.LintDraws
import Storyline.Proofs.Places

/-! # Where a draw ends

A draw adds up the weights from the first usable route on and ends at the route where the sum comes
to exceed the sample. If that does not happen it ends at the last one.
-/
namespace Storyline

open Number

def noVariables : Variables := ⟨[], List.nodup_nil⟩

def sumFrom (reached : Binary64) (routes : List (Binary64 × NodeId)) : Binary64 :=
  routes.foldl (fun sum route => sum.add route.1) reached

namespace Variables

def usable (t : Variables) (routes : List ChanceRoute) : List ChanceRoute :=
  routes.filter (t.Usable ·)

/-- The sum of the usable weights, rounded at each step. -/
def total (t : Variables) (routes : List ChanceRoute) : Binary64 :=
  sumFrom (.zero false) (t.weighted routes)

/-- The fraction of the total that the next word gives. -/
def sample (t : Variables) (routes : List ChanceRoute) (source : RandomSource) : Binary64 :=
  (RandomSource.fraction (source.word source.taken)).mul (t.total routes)

variable {t : Variables} {routes : List ChanceRoute}

theorem weighted_targets (t : Variables) (routes : List ChanceRoute) :
    (t.weighted routes).map (·.2) = (t.usable routes).map (·.target) := by
  induction routes with
  | nil => rfl
  | cons r rest ih =>
    cases h : t.weight? r with
    | none =>
      have hr : ¬ t.Usable r := not_usable_iff.mpr h
      simpa [weighted, usable, h, hr] using ih
    | some w =>
      have hr : t.Usable r := usable_iff.mpr (by simp [h])
      simpa [weighted, usable, h, hr] using ih

theorem weight_at {r : ChanceRoute} {w : Binary64} (h : t.weight? r = some w) :
    ∃ n, n < unitLimit ∧ w.At n := by
  obtain ⟨_, hw⟩ := Option.filter_eq_some_iff.mp h
  rw [Bool.and_eq_true] at hw
  exact Binary64.at_of_zero_le hw.1 hw.2

theorem weighted_at {w : Binary64} {id : NodeId} (h : (w, id) ∈ t.weighted routes) :
    ∃ n, n < unitLimit ∧ w.At n := by
  obtain ⟨r, _, _, hw⟩ := weighted_target h
  exact weight_at hw

end Variables

theorem sumFrom_append (reached : Binary64) (before after : List (Binary64 × NodeId)) :
    sumFrom reached (before ++ after) = sumFrom (sumFrom reached before) after :=
  List.foldl_append

theorem sumFrom_at {reached : Binary64} {a : Nat} (hreached : reached.At a)
    {routes : List (Binary64 × NodeId)} (h : ∀ r ∈ routes, ∃ n, r.1.At n) :
    ∃ b, a ≤ b ∧ (sumFrom reached routes).At b := by
  induction routes generalizing reached a with
  | nil => exact ⟨a, le_rfl, hreached⟩
  | cons r rest ih =>
    obtain ⟨n, hn⟩ := h r List.mem_cons_self
    obtain ⟨c, hac, hc⟩ := Binary64.add_at_ge hreached hn
    obtain ⟨b, hcb, hb⟩ := ih hc fun x hx => h x (List.mem_cons_of_mem r hx)
    exact ⟨b, hac.trans hcb, hb⟩

/-- The route where the weights come to exceed the sample, or else the last. -/
theorem pick_split {sample reached : Binary64} (hreached : sample.lt reached = false)
    (route : Binary64 × NodeId) (rest : List (Binary64 × NodeId)) :
    ∃ before w after, route :: rest = before ++ (w, pick sample reached route rest) :: after ∧
      sample.lt (sumFrom reached before) = false ∧
      (sample.lt ((sumFrom reached before).add w) = true ∨
        after = [] ∧ sample.lt ((sumFrom reached before).add w) = false) := by
  induction rest generalizing reached route with
  | nil =>
    cases h : sample.lt (reached.add route.1) with
    | true => exact ⟨[], route.1, [], rfl, hreached, Or.inl h⟩
    | false => exact ⟨[], route.1, [], rfl, hreached, Or.inr ⟨rfl, h⟩⟩
  | cons next rest ih =>
    unfold pick
    split
    · next h => exact ⟨[], route.1, next :: rest, rfl, hreached, Or.inl h⟩
    · next h =>
      obtain ⟨before, w, after, hsplit, hbefore, hend⟩ := ih (by simpa using h) next
      refine ⟨route :: before, w, after, ?_, hbefore, hend⟩
      rw [List.cons_append, ← hsplit]

theorem pick_of_split {sample reached w : Binary64} {route : Binary64 × NodeId} {id : NodeId}
    {rest before after : List (Binary64 × NodeId)}
    (hsplit : route :: rest = before ++ (w, id) :: after)
    (hbefore : ∀ earlier, earlier <+: before → sample.lt (sumFrom reached earlier) = false)
    (hwith : sample.lt ((sumFrom reached before).add w) = true) :
    pick sample reached route rest = id := by
  induction before generalizing reached route rest with
  | nil =>
    obtain ⟨rfl, rfl⟩ := List.cons_eq_cons.mp hsplit
    cases rest with
    | nil => rfl
    | cons next rest => exact if_pos hwith
  | cons first before ih =>
    obtain ⟨rfl, hrest⟩ := List.cons_eq_cons.mp hsplit
    cases rest with
    | nil => simp at hrest
    | cons next rest =>
      have hnot := hbefore [route] (List.prefix_append [route] before)
      rw [pick, if_neg (by simpa [sumFrom] using hnot)]
      refine ih hrest (fun earlier h => ?_) hwith
      exact hbefore (route :: earlier) ((List.cons_prefix_cons).mpr ⟨rfl, h⟩)

namespace RandomSource

def unitsPerStep : Nat := Nat.pow 2 1021

theorem unitsPerStep_power : ∃ k, unitsPerStep = 2 ^ k := by
  have h : unitsPerStep = 2 ^ 1021 := by decide +kernel
  exact ⟨1021, h⟩

theorem unitsPerOne_steps : unitsPerOne = 2 ^ 53 * unitsPerStep := by decide +kernel

theorem steps_mul (d n : Nat) : d * unitsPerStep * n * 2 ^ 53 = d * (n * unitsPerOne) := by
  rw [unitsPerOne_steps]
  ring

/-- The steps of 2⁻⁵³ that a word gives. -/
def steps (word : UInt64) : Nat := (word >>> 11).toNat

theorem steps_eq (word : UInt64) : steps word = word.toNat / 2 ^ 11 := by
  have hshift : (11 : UInt64).toNat % 64 = 11 := rfl
  rw [steps, UInt64.toNat_shiftRight, hshift, Nat.shiftRight_eq_div_pow]

theorem steps_lt (word : UInt64) : steps word < 2 ^ 53 := by
  have := word.toNat_lt
  rw [steps_eq]
  omega

def nextSteps (source : RandomSource) : Nat := steps (source.word source.taken)

theorem nextSteps_lt (source : RandomSource) : source.nextSteps < 2 ^ 53 := steps_lt _

theorem steps_bounded (word : UInt64) : steps word * unitsPerStep < unitLimit := by
  have hall : 2 ^ 53 * unitsPerStep < unitLimit := by decide +kernel
  exact (Nat.mul_le_mul_right _ (steps_lt word).le).trans_lt hall

theorem fraction_steps (word : UInt64) :
    fraction word = .round false (steps word * unitsPerStep) 1 := by
  delta fraction steps unitsPerStep
  rfl

theorem fraction_at (word : UInt64) : (fraction word).At (steps word * unitsPerStep) := by
  have hgrid : spacing (steps word * unitsPerStep) ∣ steps word * unitsPerStep :=
    onGrid_of_bits (steps_lt word).le unitsPerStep_power
  have hexact : toGrid (steps word * unitsPerStep) 1 = steps word * unitsPerStep := by
    simpa using toGrid_of_dvd Nat.one_pos hgrid
  have h : (Binary64.round false (steps word * unitsPerStep) 1).At _ :=
    Binary64.round_at (by simp)
  rw [hexact, Nat.min_eq_left (steps_bounded word).le] at h
  rwa [fraction_steps]

end RandomSource

namespace Variables

variable {t : Variables} {routes : List ChanceRoute}

theorem weighted_all_at (t : Variables) (routes : List ChanceRoute) :
    ∀ r ∈ t.weighted routes, ∃ n, r.1.At n := fun _ hr =>
  (weighted_at hr).imp fun _ h => h.2

theorem total_at (t : Variables) (routes : List ChanceRoute) : ∃ n, (t.total routes).At n :=
  (sumFrom_at (Binary64.zero_at false) (t.weighted_all_at routes)).imp fun _ h => h.2

theorem sample_at {n : Nat} (hn : (t.total routes).At n) (hfinite : n < unitLimit)
    (source : RandomSource) :
    (t.sample routes source).At (min
      (toGrid (source.nextSteps * RandomSource.unitsPerStep * n) unitsPerOne) unitLimit) :=
  Binary64.mul_at (RandomSource.fraction_at _) (RandomSource.steps_bounded _) hn hfinite

/-- A sample is never negative, but it need not be a number. -/
theorem sample_nan_or_at (t : Variables) (routes : List ChanceRoute) (source : RandomSource) :
    t.sample routes source = .nan ∨ ∃ n, (t.sample routes source).At n := by
  obtain ⟨total, htotal⟩ := t.total_at routes
  exact Binary64.mul_nan_or_at (RandomSource.fraction_at _) (RandomSource.steps_bounded _) htotal

theorem sample_not_lt_zero (t : Variables) (routes : List ChanceRoute) (source : RandomSource) :
    (t.sample routes source).lt (.zero false) = false := by
  rcases t.sample_nan_or_at routes source with hnan | ⟨n, hn⟩
  · rw [hnan, Binary64.nan_lt]
  · exact Bool.eq_false_iff.mpr fun h =>
      Nat.not_lt_zero n ((hn.lt_iff (Binary64.zero_at false)).mp h)

theorem sample_lt_of_le {source : RandomSource} {x y : Binary64} {a b : Nat} (hx : x.At a)
    (hy : y.At b) (hab : a ≤ b) (h : (t.sample routes source).lt x = true) :
    (t.sample routes source).lt y = true := by
  rcases t.sample_nan_or_at routes source with hnan | ⟨n, hn⟩
  · rw [hnan, Binary64.nan_lt] at h
    cases h
  · exact (hn.lt_iff hy).mpr (((hn.lt_iff hx).mp h).trans_le hab)

theorem sample_lt_append {source : RandomSource} {first second : List (Binary64 × NodeId)}
    (hall : ∀ x ∈ first ++ second, ∃ n, x.1.At n)
    (h : (t.sample routes source).lt (sumFrom (.zero false) first) = true) :
    (t.sample routes source).lt (sumFrom (.zero false) (first ++ second)) = true := by
  obtain ⟨a, _, ha⟩ := sumFrom_at (Binary64.zero_at false) fun x hx =>
    hall x (List.mem_append_left second hx)
  obtain ⟨b, hab, hb⟩ := sumFrom_at ha fun x hx => hall x (List.mem_append_right first hx)
  rw [sumFrom_append]
  exact sample_lt_of_le ha hb hab h

theorem sample_lt_of_prefix {source : RandomSource} {before longer : List ChanceRoute}
    (h : before <+: longer) (hlt : (t.sample routes source).lt (t.total before) = true) :
    (t.sample routes source).lt (t.total longer) = true := by
  obtain ⟨more, rfl⟩ := h
  have hall := t.weighted_all_at (before ++ more)
  rw [weighted_append] at hall
  rw [total, weighted_append]
  exact sample_lt_append hall hlt

end Variables

theorem drawRoute_pick {t : Variables} {routes : List ChanceRoute} {first : Binary64 × NodeId}
    {rest : List (Binary64 × NodeId)} (h : t.weighted routes = first :: rest)
    (source : RandomSource) :
    (drawRoute t routes source).1 =
      .ok (pick (t.sample routes source) (.zero false) first rest) := by
  simp only [drawRoute, RandomSource.draw, Variables.sample, Variables.total, sumFrom, h]

/-- The usable route where a draw ends: the sums before it do not exceed the sample, and the sum
with it does, unless it is the last. -/
theorem drawRoute_split {t : Variables} {routes : List ChanceRoute} (h : t.weighted routes ≠ [])
    (source : RandomSource) :
    ∃ before w id after, t.weighted routes = before ++ (w, id) :: after ∧
      (drawRoute t routes source).1 = .ok id ∧
      (t.sample routes source).lt (sumFrom (.zero false) before) = false ∧
      ((t.sample routes source).lt (sumFrom (.zero false) (before ++ [(w, id)])) = true ∨
        after = [] ∧ (t.sample routes source).lt (t.total routes) = false) := by
  obtain ⟨first, rest, hw⟩ := List.exists_cons_of_ne_nil h
  obtain ⟨before, w, after, hsplit, hbefore, hend⟩ :=
    pick_split (t.sample_not_lt_zero routes source) first rest
  have hsum : ∀ id, sumFrom (.zero false) (before ++ [(w, id)]) =
      (sumFrom (.zero false) before).add w := fun id => sumFrom_append _ _ _
  refine ⟨before, w, _, after, hw.trans hsplit, drawRoute_pick hw source, hbefore, ?_⟩
  rw [hsum]
  refine hend.imp_right fun hlast => ⟨hlast.1, ?_⟩
  rw [Variables.total, hw, hsplit, hlast.1, hsum]
  exact hlast.2

theorem drawRoute_of_split {t : Variables} {routes : List ChanceRoute} {source : RandomSource}
    {before after : List (Binary64 × NodeId)} {w : Binary64} {id : NodeId}
    (hsplit : t.weighted routes = before ++ (w, id) :: after)
    (hbefore : (t.sample routes source).lt (sumFrom (.zero false) before) = false)
    (hwith : (t.sample routes source).lt (sumFrom (.zero false) (before ++ [(w, id)])) = true) :
    (drawRoute t routes source).1 = .ok id := by
  obtain ⟨first, rest, hw⟩ := List.exists_cons_of_ne_nil (l := t.weighted routes) (by simp [hsplit])
  have hpick : pick (t.sample routes source) (.zero false) first rest = id := by
    rw [sumFrom_append] at hwith
    refine pick_of_split (hw ▸ hsplit) (fun earlier hinitial => ?_) hwith
    obtain ⟨later, rfl⟩ := hinitial
    have hall : ∀ x ∈ earlier ++ later, ∃ n, x.1.At n := fun x hx =>
      t.weighted_all_at routes x (hsplit ▸ List.mem_append_left _ hx)
    refine Bool.eq_false_iff.mpr fun hless => ?_
    rw [Variables.sample_lt_append hall hless] at hbefore
    cases hbefore
  rw [drawRoute_pick hw, hpick]

end Storyline

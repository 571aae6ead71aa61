import Mathlib.Algebra.Order.Field.Rat
import Mathlib.Data.Finset.Card
import Mathlib.Tactic.FieldSimp
import Storyline.Proofs.DrawnRoute

/-! # The share of a route

Weights that are integers add up exactly, up to 2⁵³. Of the 2⁵³ fractions of 1 that a word can give,
each sum is greater than the samples of its exact share, but for less than one more or one fewer:
rounding moves a sample up to a sum, never past it. The draws that end at a route are those between
two sums.
-/
namespace Storyline

open Number

theorem split_unique {l before before' after after' : List (α × β)} {a a' : α} {k : β}
    (hd : (l.map (·.2)).Nodup) (h : l = before ++ (a, k) :: after)
    (h' : l = before' ++ (a', k) :: after') : before = before' ∧ a = a' := by
  have hnot : ∀ {front back : List (α × β)} {x : α},
      l = front ++ (x, k) :: back → k ∉ front.map (·.2) ∧ k ∉ back.map (·.2) := by
    rintro front back x rfl
    rw [List.map_append, List.map_cons, List.nodup_middle, List.nodup_cons, List.mem_append,
      not_or] at hd
    exact hd.1
  have hkeys : before.map (·.2) ++ k :: after.map (·.2) =
      before'.map (·.2) ++ k :: after'.map (·.2) := by
    simpa using congrArg (List.map (·.2)) (h.symm.trans h')
  have hfront := ((List.append_cons_inj_of_notMem (hnot h).1 (hnot h).2).mp hkeys).1
  have hlength : before.length = before'.length := by
    simpa using congrArg List.length hfront
  obtain ⟨hbefore, hrest⟩ := List.append_inj (h.symm.trans h') hlength
  exact ⟨hbefore, by simpa using (List.cons_eq_cons.mp hrest).1⟩

/-- Of the first `N` numbers `p` holds of the share `c / total`, but for less than one, if it holds
up to one before the end of the share and does not hold from the end on. -/
theorem card_near_share {N total c : Nat} {p : Nat → Prop} [DecidablePred p] (hpos : 0 < total)
    (hc : c ≤ total) (hbelow : ∀ d < N, p d → d * total < c * N)
    (habove : ∀ d < N, d * total + total ≤ c * N → p d) :
    c * N < ((Finset.range N).filter p).card * total + total ∧
      ((Finset.range N).filter p).card * total < c * N + total := by
  constructor
  · have hsub : Finset.range (c * N / total) ⊆ (Finset.range N).filter p := by
      intro d hd
      have hnext : d * total + total ≤ c * N := by
        rw [Finset.mem_range, ← Nat.succ_le_iff, Nat.le_div_iff_mul_le hpos, Nat.succ_mul] at hd
        exact hd
      have hN : d * total + total ≤ N * total := by
        rw [Nat.mul_comm N]
        exact hnext.trans (Nat.mul_le_mul_right N hc)
      rw [← Nat.succ_mul] at hN
      have hlt := Nat.le_of_mul_le_mul_right hN hpos
      exact Finset.mem_filter.mpr ⟨Finset.mem_range.mpr hlt, habove d hlt hnext⟩
    have hcard := Finset.card_le_card hsub
    rw [Finset.card_range] at hcard
    have := Nat.lt_div_mul_add (a := c * N) hpos
    have := Nat.mul_le_mul_right total hcard
    omega
  · have hsub : (Finset.range N).filter p ⊆ Finset.range ((c * N + total - 1) / total) := by
      intro d hd
      obtain ⟨hN, hp⟩ := Finset.mem_filter.mp hd
      have := hbelow d (Finset.mem_range.mp hN) hp
      rw [Finset.mem_range, ← Nat.succ_le_iff, Nat.le_div_iff_mul_le hpos, Nat.succ_mul]
      omega
    have hcard := Finset.card_le_card hsub
    rw [Finset.card_range] at hcard
    have := Nat.div_mul_le_self (c * N + total - 1) total
    have := Nat.mul_le_mul_right total hcard
    omega

theorem share_close {total : Nat} (N k count : Nat) (hpos : 0 < total)
    (hmore : k * N < count * total + 2 * total) (hless : count * total < k * N + 2 * total) :
    |(count : ℚ) - N * k / total| < 2 := by
  have htotal : (0 : ℚ) < total := by exact_mod_cast hpos
  have hmore' : (k : ℚ) * N < count * total + 2 * total := by exact_mod_cast hmore
  have hless' : (count : ℚ) * total < k * N + 2 * total := by exact_mod_cast hless
  rw [abs_lt, neg_lt_sub_iff_lt_add, sub_lt_iff_lt_add, div_lt_iff₀ htotal, ← sub_lt_iff_lt_add',
    lt_div_iff₀ htotal]
  constructor <;> linarith

namespace RandomSource

def ofSteps (d : Nat) : RandomSource := ⟨fun _ => UInt64.ofNat (d * 2 ^ 11), 0⟩

theorem nextSteps_ofSteps {d : Nat} (h : d < 2 ^ 53) : (ofSteps d).nextSteps = d := by
  have hword : (UInt64.ofNat (d * 2 ^ 11)).toNat = d * 2 ^ 11 := by
    rw [UInt64.toNat_ofNat_of_lt']
    unfold UInt64.size
    omega
  rw [nextSteps, ofSteps, steps_eq, hword]
  omega

end RandomSource

section Integers

variable {x y : Binary64} {a b c : Nat}

theorem unitsPerOne_power : ∃ k, unitsPerOne = 2 ^ k := by
  have h : unitsPerOne = 2 ^ 1074 := by decide +kernel
  exact ⟨1074, h⟩

theorem integer_lt_limit (h : c ≤ 2 ^ 53) : c * unitsPerOne < unitLimit := by
  have hall : 2 ^ 53 * unitsPerOne < unitLimit := by decide +kernel
  exact (Nat.mul_le_mul_right _ h).trans_lt hall

theorem add_integers (hx : x.At (a * unitsPerOne)) (hy : y.At (b * unitsPerOne))
    (h : a + b ≤ 2 ^ 53) : (x.add y).At ((a + b) * unitsPerOne) := by
  have hexact : toGrid ((a + b) * unitsPerOne) 1 = (a + b) * unitsPerOne := by
    simpa using toGrid_of_dvd Nat.one_pos (onGrid_of_bits h unitsPerOne_power)
  have hadd := Binary64.add_at hx hy
  rwa [← Nat.add_mul, hexact, Nat.min_eq_left (integer_lt_limit h).le] at hadd

end Integers

namespace Variables

def Weighs (t : Variables) (r : ChanceRoute) (n : Nat) : Prop :=
  ∃ w, t.weight? r = some w ∧ w.At (n * unitsPerOne)

def drawsTo (t : Variables) (routes : List ChanceRoute) (id : NodeId) : Finset Nat :=
  {d ∈ Finset.range (2 ^ 53) | (drawRoute t routes (.ofSteps d)).1 = .ok id}

def samplesBelow (t : Variables) (routes : List ChanceRoute) (sum : Binary64) : Finset Nat :=
  {d ∈ Finset.range (2 ^ 53) | (t.sample routes (.ofSteps d)).lt sum = true}

variable {t : Variables} {routes before after : List ChanceRoute} {r : ChanceRoute}
variable {source : RandomSource}

theorem weighs_iff {n : Nat} :
    t.Weighs r n ↔ (t.weight? r).bind (·.place) = some ((n * unitsPerOne : Nat) : Int) := by
  simp only [Weighs, Binary64.At, Option.bind_eq_some_iff]

instance (n : Nat) : Decidable (t.Weighs r n) := decidable_of_iff' _ weighs_iff

theorem weighted_usable (t : Variables) (routes : List ChanceRoute) :
    t.weighted (t.usable routes) = t.weighted routes := by
  rw [weighted, usable, List.filterMap_filter, weighted]
  refine List.filterMap_congr fun r _ => ?_
  cases h : t.weight? r <;> simp [usable_iff, h]

theorem weighted_split (hsplit : t.usable routes = before ++ r :: after) {w : Binary64}
    (hw : t.weight? r = some w) :
    t.weighted routes = t.weighted before ++ (w, r.target) :: t.weighted after := by
  rw [← weighted_usable, hsplit, weighted_append, weighted_cons, hw]
  rfl

theorem total_nil : t.total [] = .zero false := by
  simp only [total, weighted, sumFrom, List.filterMap_nil, List.foldl_nil]

theorem total_snoc {w : Binary64} (hw : t.weight? r = some w) :
    t.total (before ++ [r]) = (t.total before).add w := by
  rw [total, weighted_append, weighted_cons, hw, sumFrom_append]
  rfl

theorem total_integer {n : ChanceRoute → Nat} (h : ∀ r ∈ routes, t.Weighs r (n r))
    (hsum : (routes.map n).sum ≤ 2 ^ 53) :
    (t.total routes).At ((routes.map n).sum * unitsPerOne) := by
  induction routes using List.reverseRecOn with
  | nil =>
    rw [total_nil, List.map_nil, List.sum_nil, Nat.zero_mul]
    exact Binary64.zero_at false
  | append_singleton before r ih =>
    obtain ⟨w, hw, hn⟩ := h r (by simp)
    simp only [List.map_append, List.sum_append, List.map_cons, List.map_nil, List.sum_cons,
      List.sum_nil, Nat.add_zero] at hsum ⊢
    rw [total_snoc hw]
    exact add_integers (ih (fun x hx => h x (by simp [hx])) (by omega)) hn hsum

theorem total_usable (t : Variables) (routes : List ChanceRoute) :
    t.total (t.usable routes) = t.total routes := by
  rw [total, weighted_usable, total]

section Samples

variable {sum : Binary64} {total c : Nat}

theorem sample_steps : t.sample routes source =
    (Binary64.round false (source.nextSteps * RandomSource.unitsPerStep) 1).mul
      (t.total routes) := by
  rw [sample, RandomSource.fraction_steps, RandomSource.nextSteps]

theorem steps_lt_of_sample_lt (htotal : (t.total routes).At (total * unitsPerOne))
    (hbound : total ≤ 2 ^ 53) (hsum : sum.At (c * unitsPerOne)) (hc : c ≤ total)
    (h : (t.sample routes source).lt sum = true) : source.nextSteps * total < c * 2 ^ 53 := by
  have hlt := ((sample_at htotal (integer_lt_limit hbound) source).lt_iff hsum).mp h
  by_contra hover
  have hreached : c * unitsPerOne ≤ toGrid
      (source.nextSteps * RandomSource.unitsPerStep * (total * unitsPerOne)) unitsPerOne := by
    refine le_toGrid unitsPerOne_pos (onGrid_of_bits (hc.trans hbound) unitsPerOne_power) ?_
    refine Nat.le_of_mul_le_mul_right ?_ (Nat.two_pow_pos 53)
    rw [RandomSource.steps_mul]
    calc c * unitsPerOne * unitsPerOne * 2 ^ 53
        = c * 2 ^ 53 * (unitsPerOne * unitsPerOne) := by ring
      _ ≤ source.nextSteps * total * (unitsPerOne * unitsPerOne) :=
        Nat.mul_le_mul_right _ (Nat.le_of_not_lt hover)
      _ = source.nextSteps * (total * unitsPerOne * unitsPerOne) := by ring
  exact absurd hlt (Nat.not_lt.mpr
    (Nat.le_min.mpr ⟨hreached, (integer_lt_limit (hc.trans hbound)).le⟩))

theorem sample_lt_of_steps_lt (htotal : (t.total routes).At (total * unitsPerOne))
    (hbound : total ≤ 2 ^ 53) (hpos : 0 < total) (hsum : sum.At (c * unitsPerOne)) (hc : c ≤ total)
    (h : source.nextSteps * total + total ≤ c * 2 ^ 53) :
    (t.sample routes source).lt sum = true := by
  refine ((sample_at htotal (integer_lt_limit hbound) source).lt_iff hsum).mpr
    ((Nat.min_le_left _ _).trans_lt ?_)
  have hcpos : 1 ≤ c := by
    by_contra hzero
    obtain rfl : c = 0 := by omega
    omega
  have hlarge : 2 ^ 52 < c * unitsPerOne := by
    have hone : 2 ^ 52 < unitsPerOne := by decide +kernel
    exact hone.trans_le (Nat.le_mul_of_pos_left _ hcpos)
  refine toGrid_lt unitsPerOne_pos (onGrid_of_bits (hc.trans hbound) unitsPerOne_power) hlarge ?_
  rw [RandomSource.steps_mul]
  calc source.nextSteps * (total * unitsPerOne * unitsPerOne)
      = source.nextSteps * total * (unitsPerOne * unitsPerOne) := by ring
    _ ≤ (2 ^ 53 - 1) * c * (unitsPerOne * unitsPerOne) := Nat.mul_le_mul_right _ (by omega)
    _ = (2 ^ 53 - 1) * (c * unitsPerOne * unitsPerOne) := by ring

end Samples

/-- A route is drawn by the samples from the sum before it up to the sum with it. -/
theorem drawn_iff (hnodup : ((t.usable routes).map (·.target)).Nodup)
    (hbelow : (t.sample routes source).lt (t.total routes) = true)
    (hsplit : t.usable routes = before ++ r :: after) :
    (drawRoute t routes source).1 = .ok r.target ↔
      (t.sample routes source).lt (t.total before) = false ∧
        (t.sample routes source).lt (t.total (before ++ [r])) = true := by
  have hr : t.Usable r := by
    have hmem : r ∈ t.usable routes := by simp [hsplit]
    simpa using (List.mem_filter.mp hmem).2
  obtain ⟨w, hw⟩ := Option.isSome_iff_exists.mp (usable_iff.mp hr)
  have hweighted := weighted_split hsplit hw
  have hwith : t.total (before ++ [r]) =
      sumFrom (.zero false) (t.weighted before ++ [(w, r.target)]) := by
    rw [total_snoc hw, sumFrom_append]
    rfl
  rw [hwith]
  constructor
  · intro hdraw
    have hne : t.weighted routes ≠ [] := by simp [hweighted]
    obtain ⟨front, v, id, back, hfront, hid, hnot, hlt | ⟨_, hlast⟩⟩ := drawRoute_split hne source
    · obtain rfl : r.target = id := by simpa [hdraw] using hid
      have hkeys : ((t.weighted routes).map (·.2)).Nodup := by rwa [weighted_targets]
      obtain ⟨rfl, rfl⟩ := split_unique hkeys hfront hweighted
      exact ⟨hnot, hlt⟩
    · simp [hbelow] at hlast
  · rintro ⟨hnot, hlt⟩
    exact drawRoute_of_split hweighted hnot hlt

theorem samplesBelow_subset (t : Variables) (routes before : List ChanceRoute) (r : ChanceRoute) :
    t.samplesBelow routes (t.total before) ⊆ t.samplesBelow routes (t.total (before ++ [r])) := by
  intro d hd
  obtain ⟨hrange, hless⟩ := Finset.mem_filter.mp hd
  exact Finset.mem_filter.mpr ⟨hrange, sample_lt_of_prefix (List.prefix_append before [r]) hless⟩

/-- The usable weights are integers that add up to `total`, from 1 to 2⁵³. -/
structure IntegerWeights (t : Variables) (routes : List ChanceRoute) (n : ChanceRoute → Nat)
    (total : Nat) : Prop where
  weighs : ∀ r ∈ t.usable routes, t.Weighs r (n r)
  sum : ((t.usable routes).map n).sum = total
  pos : 1 ≤ total
  bounded : total ≤ 2 ^ 53

namespace IntegerWeights

variable {n : ChanceRoute → Nat} {total : Nat}

theorem total_at (h : t.IntegerWeights routes n total) :
    (t.total routes).At (total * unitsPerOne) := by
  rw [← total_usable, ← h.sum]
  exact total_integer h.weighs (h.sum.trans_le h.bounded)

theorem sum_le (h : t.IntegerWeights routes n total) (hinitial : before <+: t.usable routes) :
    (before.map n).sum ≤ total := by
  obtain ⟨after, hsplit⟩ := hinitial
  rw [← h.sum, ← hsplit, List.map_append, List.sum_append]
  exact Nat.le_add_right _ _

theorem sum_at (h : t.IntegerWeights routes n total) (hinitial : before <+: t.usable routes) :
    (t.total before).At ((before.map n).sum * unitsPerOne) :=
  total_integer (fun r hr => h.weighs r (hinitial.subset hr)) ((h.sum_le hinitial).trans h.bounded)

theorem sample_lt_total (h : t.IntegerWeights routes n total) (source : RandomSource) :
    (t.sample routes source).lt (t.total routes) = true := by
  have hsteps := source.nextSteps_lt
  refine sample_lt_of_steps_lt h.total_at h.bounded h.pos h.total_at le_rfl ?_
  rw [← Nat.succ_mul, Nat.mul_comm]
  exact Nat.mul_le_mul_left _ hsteps

theorem samplesBelow_near (h : t.IntegerWeights routes n total)
    (hinitial : before <+: t.usable routes) :
    (before.map n).sum * 2 ^ 53 <
        (t.samplesBelow routes (t.total before)).card * total + total ∧
      (t.samplesBelow routes (t.total before)).card * total <
        (before.map n).sum * 2 ^ 53 + total := by
  have hle := h.sum_le hinitial
  have hsum := h.sum_at hinitial
  refine card_near_share h.pos hle (fun d hd hless => ?_) (fun d hd hshare => ?_)
  · have := steps_lt_of_sample_lt h.total_at h.bounded hsum hle hless
    rwa [RandomSource.nextSteps_ofSteps hd] at this
  · refine sample_lt_of_steps_lt h.total_at h.bounded h.pos hsum hle ?_
    rwa [RandomSource.nextSteps_ofSteps hd]

theorem card_drawsTo (h : t.IntegerWeights routes n total)
    (hdistinct : ((t.usable routes).map (·.target)).Nodup)
    (hsplit : t.usable routes = before ++ r :: after) :
    (t.drawsTo routes r.target).card + (t.samplesBelow routes (t.total before)).card =
      (t.samplesBelow routes (t.total (before ++ [r]))).card := by
  have hdiff : t.drawsTo routes r.target = t.samplesBelow routes (t.total (before ++ [r])) \
      t.samplesBelow routes (t.total before) := by
    ext d
    simp only [drawsTo, samplesBelow, Finset.mem_filter, Finset.mem_sdiff,
      drawn_iff hdistinct (h.sample_lt_total _) hsplit]
    grind
  rw [hdiff, Finset.card_sdiff_add_card_eq_card (t.samplesBelow_subset routes before r)]

end IntegerWeights

end Variables

theorem drawRoute_ofSteps (t : Variables) (routes : List ChanceRoute) (source : RandomSource) :
    (drawRoute t routes source).1 = (drawRoute t routes (.ofSteps source.nextSteps)).1 := by
  have hsample : t.sample routes (.ofSteps source.nextSteps) = t.sample routes source := by
    rw [Variables.sample_steps, RandomSource.nextSteps_ofSteps source.nextSteps_lt,
      Variables.sample_steps]
  cases hw : t.weighted routes with
  | nil => simp [drawRoute, hw]
  | cons first rest => rw [drawRoute_pick hw, drawRoute_pick hw, hsample]

/-- The usable weights are integers with a sum from 1 to 2⁵³ and the targets differ: of the 2⁵³
fractions of 1 on which a draw depends, each route gets its share, but for less than two. -/
theorem draws_proportional {t : Variables} {routes : List ChanceRoute} {n : ChanceRoute → Nat}
    {total : Nat} (h : t.IntegerWeights routes n total)
    (hdistinct : ((t.usable routes).map (·.target)).Nodup) :
    (∀ source, source.nextSteps < 2 ^ 53 ∧
      (drawRoute t routes source).1 = (drawRoute t routes (.ofSteps source.nextSteps)).1) ∧
    (∀ d < 2 ^ 53, (RandomSource.ofSteps d).nextSteps = d) ∧
    ∀ r ∈ t.usable routes,
      |((t.drawsTo routes r.target).card : ℚ) - 2 ^ 53 * n r / total| < 2 := by
  refine ⟨fun source => ⟨source.nextSteps_lt, drawRoute_ofSteps t routes source⟩,
    fun d hd => RandomSource.nextSteps_ofSteps hd, fun r hr => ?_⟩
  obtain ⟨before, after, hsplit⟩ := List.append_of_mem hr
  have hcard := h.card_drawsTo hdistinct hsplit
  have hinitial : before ++ [r] <+: t.usable routes := ⟨after, by simp [hsplit]⟩
  have hlow := h.samplesBelow_near ((List.prefix_append _ _).trans hinitial)
  have hhigh := h.samplesBelow_near hinitial
  rw [← hcard, List.map_append, List.sum_append, List.map_singleton, List.sum_singleton,
    Nat.add_mul, Nat.add_mul] at hhigh
  have hclose := share_close (2 ^ 53) (n r) (t.drawsTo routes r.target).card h.pos (by omega)
    (by omega)
  rwa [Nat.cast_pow, Nat.cast_ofNat] at hclose

/-- Weights 1 and 3 with one between them that is not a number: three quarters of the draws. -/
theorem three_quarters_drawn :
    let routes : List ChanceRoute := [⟨"1", 1⟩, ⟨"few", 2⟩, ⟨"3", 3⟩]
    noVariables.IntegerWeights routes (fun r => if r.target = 1 then 1 else 3) 4 ∧
      ((noVariables.usable routes).map (·.target)).Nodup ∧
      |((noVariables.drawsTo routes 3).card : ℚ) - 2 ^ 53 * (3 / 4)| < 2 := by
  intro routes
  have hweights : noVariables.IntegerWeights routes (fun r => if r.target = 1 then 1 else 3) 4 :=
    ⟨by decide +kernel, by decide +kernel, by decide, by decide⟩
  have hdistinct : ((noVariables.usable routes).map (·.target)).Nodup := by decide +kernel
  have hthree : ⟨"3", 3⟩ ∈ noVariables.usable routes := by decide +kernel
  have hshare := (draws_proportional hweights hdistinct).2.2 _ hthree
  have hweight : (if (3 : NodeId) = 1 then 1 else 3) = 3 := by decide
  simp only [hweight] at hshare
  rw [mul_div_assoc] at hshare
  exact ⟨hweights, hdistinct, hshare⟩

end Storyline

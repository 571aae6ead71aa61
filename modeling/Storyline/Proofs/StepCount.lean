import Mathlib.Logic.Relation
import Storyline.Proofs.Advance

/-! # The count of transit nodes

An advance counts its transit nodes in 64 bits: at each one the count goes up, and only then it is
compared with the limit. The comparison stops a chain without an end under every limit but the
greatest, which no count of 64 bits exceeds. There the count leaves its range.
-/
namespace Storyline

def greatestLimit : UInt64 := 0xFFFFFFFFFFFFFFFF

theorem eq_greatestLimit_iff {limit : UInt64} :
    limit = greatestLimit ↔ 2 ^ 64 ≤ limit.toNat + 1 := by
  have hgreatest : greatestLimit.toNat = 2 ^ 64 - 1 := rfl
  have hlimit := limit.toNat_lt
  rw [← UInt64.toNat_inj, hgreatest]
  omega

/-- An advance between two nodes: the transit nodes counted so far, and where it stands. -/
structure Counted where
  count : UInt64
  place : Place

namespace Counted

/-- The count goes up at a transit node. If it stays in range and within the limit, the node does
its work. -/
inductive Round (p : Project) (l : Counted) : Counted → Prop where
  | pass {work c} : l.place.Meets work → l.count.toNat + 1 < 2 ^ 64 →
      l.count + 1 ≤ p.stepLimit → Effect p l.place work c → Round p l ⟨l.count + 1, c⟩

def Rounds (p : Project) : Counted → Counted → Prop := Relation.ReflTransGen (Round p)

/-- At the next transit node the count leaves its range. -/
structure Overflows (l : Counted) : Prop where
  full : 2 ^ 64 ≤ l.count.toNat + 1
  meets : ∃ work, l.place.Meets work

variable {p : Project} {a c : Place} {l m : Counted}

theorem Round.count (h : Round p l m) : m.count.toNat = l.count.toNat + 1 := by
  cases h with
  | pass _ hrange _ _ =>
    rw [UInt64.toNat_add]
    exact Nat.mod_eq_of_lt hrange

structure Keeps (p : Project) (a : Place) (l : Counted) : Prop where
  chain : Chain p l.count.toNat a l.place
  within : l.count.toNat ≤ p.stepLimit.toNat

theorem Keeps.round (h : Keeps p a l) (hr : Round p l m) : Keeps p a m := by
  have hcount := hr.count
  cases hr with
  | pass hm _ hlimit he =>
    constructor
    · rw [hcount]
      exact h.chain.snoc ⟨_, hm, he⟩
    · exact UInt64.le_iff_toNat_le.mp hlimit

theorem Rounds.keeps (h : Rounds p ⟨0, a⟩ l) : Keeps p a l := by
  induction h with
  | refl => exact ⟨.nil a, Nat.zero_le _⟩
  | tail _ hr ih => exact ih.round hr

end Counted

theorem Chain.last {p : Project} {k : Nat} {a c : Place} (h : Chain p (k + 1) a c) :
    ∃ b, Chain p k a b ∧ Step p b c := by
  induction k generalizing a with
  | zero =>
    cases h with
    | cons hs hc =>
      cases hc
      exact ⟨a, .nil a, hs⟩
  | succ k ih =>
    cases h with
    | cons hs hc =>
      obtain ⟨b, hb, hlast⟩ := ih hc
      exact ⟨b, .cons hs hb, hlast⟩

namespace Counted

variable {p : Project} {a c : Place}

theorem exists_rounds {k : Nat} (h : Chain p k a c) (hk : k ≤ p.stepLimit.toNat) :
    ∃ l, Rounds p ⟨0, a⟩ l ∧ l.count.toNat = k ∧ l.place = c := by
  -- The last step is taken off, since that is where the count is highest.
  induction k generalizing c with
  | zero =>
    rw [chain_zero_iff] at h
    subst h
    exact ⟨⟨0, c⟩, .refl, rfl, rfl⟩
  | succ k ih =>
    obtain ⟨b, hb, work, hm, he⟩ := h.last
    obtain ⟨l, hl, hcount, rfl⟩ := ih hb (by omega)
    have hlimit := p.stepLimit.toNat_lt
    have hrange : l.count.toNat + 1 < 2 ^ 64 := by omega
    have hnext : (l.count + 1).toNat = k + 1 := by
      rw [UInt64.toNat_add, ← hcount]
      exact Nat.mod_eq_of_lt hrange
    have hwithin : l.count + 1 ≤ p.stepLimit := UInt64.le_iff_toNat_le.mpr (by omega)
    exact ⟨⟨l.count + 1, c⟩, hl.tail (.pass hm hrange hwithin he), hnext, rfl⟩

theorem overflows_iff :
    (∃ l, Rounds p ⟨0, a⟩ l ∧ l.Overflows) ↔
      p.stepLimit = greatestLimit ∧
        ∃ c, Chain p p.stepLimit.toNat a c ∧ ∃ work, c.Meets work := by
  rw [eq_greatestLimit_iff]
  constructor
  · rintro ⟨l, hl, hfull, hmeets⟩
    obtain ⟨hchain, hwithin⟩ := hl.keeps
    have hlimit := p.stepLimit.toNat_lt
    have hcount : l.count.toNat = p.stepLimit.toNat := by omega
    exact ⟨by omega, l.place, hcount ▸ hchain, hmeets⟩
  · rintro ⟨hgreatest, c, hchain, hmeets⟩
    obtain ⟨l, hl, hcount, rfl⟩ := exists_rounds hchain (Nat.le_refl _)
    exact ⟨l, hl, by omega, hmeets⟩

end Counted

def Endless (p : Project) (a : Place) : Prop := ∀ k, ∃ c, Chain p k a c

theorem Endless.meets {p : Project} {a : Place} (h : Endless p a) (k : Nat) :
    ∃ c, Chain p k a c ∧ ∃ work, c.Meets work := by
  obtain ⟨d, hd⟩ := h (k + 1)
  obtain ⟨c, hc, work, hm, _⟩ := hd.last
  exact ⟨c, hc, work, hm⟩

theorem endless_of_step {p : Project} {a : Place} (h : Step p a a) : Endless p a := by
  intro k
  refine ⟨a, ?_⟩
  induction k with
  | zero => exact .nil a
  | succ k ih => exact .cons h ih

namespace Traversal

variable {t : Traversal} {choice : Option UInt64} {origin : NodeId} {next : Option NodeId}

theorem advance_overflow_iff (h : t.Leaves choice origin next) :
    (t.advance choice).1 = .error .stepOverflow ↔
      ∃ l, Counted.Rounds t.play.project ⟨0, t.place next⟩ l ∧ l.Overflows := by
  rw [Counted.overflows_iff, eq_greatestLimit_iff]
  constructor
  · intro hover
    obtain ⟨r, c, he⟩ := ends_exists t next t.play.project.stepLimit.toNat
    rw [advance_ends h he] at hover
    cases he with
    | scene => cases hover
    | nowhere => cases hover
    | exhausted hc hm =>
      by_cases hlimit : t.play.project.stepLimit.toNat < 2 ^ 64 - 1
      · rw [settle_exhausted origin c _ hlimit] at hover
        cases hover
      · exact ⟨by omega, c, hc, _, hm⟩
  · rintro ⟨hgreatest, c, hc, work, hm⟩
    have hlimit := t.play.project.stepLimit.toNat_lt
    rw [advance_ends h (.exhausted hc hm), settle_overflowed origin c _ (by omega)]

theorem advance_endless (h : t.Leaves choice origin next)
    (hendless : Endless t.play.project (t.place next))
    (hlimit : t.play.project.stepLimit ≠ greatestLimit) :
    ∃ c, t.advance choice = (.error (.stepLimit t.play.project.stepLimit), t.arrive c none) := by
  rw [Ne, eq_greatestLimit_iff] at hlimit
  obtain ⟨c, hc, work, hm⟩ := hendless.meets t.play.project.stepLimit.toNat
  refine ⟨c, ?_⟩
  rw [advance_ends h (.exhausted hc hm)]
  exact settle_exhausted origin c _ (by omega)

end Traversal

/-- The count leaves its 64 bits only under the greatest limit, when a chain passes as many transit
nodes as that and comes to one more; just then an advance answers an overflow. Under every other
limit an advance into a chain without an end gives up with its limit, and the cursor is cleared. -/
theorem count_overflows_at_greatest_limit (t : Traversal) (choice : Option UInt64)
    (origin : NodeId) (next : Option NodeId) (h : t.Leaves choice origin next) :
    ((∃ l, Counted.Rounds t.play.project ⟨0, t.place next⟩ l ∧ l.Overflows) ↔
      t.play.project.stepLimit = greatestLimit ∧
        ∃ c, Chain t.play.project t.play.project.stepLimit.toNat (t.place next) c ∧
          ∃ work, c.Meets work) ∧
    ((t.advance choice).1 = .error .stepOverflow ↔
      ∃ l, Counted.Rounds t.play.project ⟨0, t.place next⟩ l ∧ l.Overflows) ∧
    (Endless t.play.project (t.place next) →
      if t.play.project.stepLimit = greatestLimit then
        (t.advance choice).1 = .error .stepOverflow
      else
        (t.advance choice).1 = .error (.stepLimit t.play.project.stepLimit) ∧
          (t.advance choice).2.current = none) := by
  refine ⟨Counted.overflows_iff, Traversal.advance_overflow_iff h, fun hendless => ?_⟩
  split
  · next hlimit =>
    rw [Traversal.advance_overflow_iff h, Counted.overflows_iff]
    exact ⟨hlimit, hendless.meets _⟩
  · next hlimit =>
    obtain ⟨c, hadvance⟩ := Traversal.advance_endless h hendless hlimit
    rw [hadvance]
    exact ⟨rfl, rfl⟩

/-- Behind the rim a node leads to itself. -/
def whirlpool : Experience :=
  ⟨"Whirlpool", [⟨0, [], .scene (.start "Rim" (some 1))⟩, ⟨1, [], .transit (.update [] (some 1))⟩]⟩

def sea (limit : UInt64) : Project where
  document := ⟨[whirlpool], [], []⟩
  experiences_distinct := by decide
  nodes_distinct := by decide
  variables_distinct := by decide
  stepLimit := limit

def onRim (limit : UInt64) : Traversal := ⟨.new (sea limit) (.cycle #[0]), whirlpool, some 0⟩

theorem onRim_leaves (limit : UInt64) : (onRim limit).Leaves none 0 (some 1) :=
  ⟨rfl, _, _, rfl, rfl, .start "Rim" (some 1)⟩

theorem onRim_endless (limit : UInt64) : Endless (sea limit) ((onRim limit).place (some 1)) :=
  endless_of_step ⟨.update [] (some 1), ⟨_, rfl, rfl⟩, .update (.nil _)⟩

/-- One below the greatest limit, the advance into the whirlpool gives up. -/
theorem rim_gives_up :
    (onRim (greatestLimit - 1)).Leaves none 0 (some 1) ∧
      Endless (sea (greatestLimit - 1)) ((onRim (greatestLimit - 1)).place (some 1)) ∧
      ((onRim (greatestLimit - 1)).advance none).1 = .error (.stepLimit (greatestLimit - 1)) ∧
      ((onRim (greatestLimit - 1)).advance none).2.current = none := by
  have hleaves := onRim_leaves (greatestLimit - 1)
  have hendless := onRim_endless (greatestLimit - 1)
  have hgives := (count_overflows_at_greatest_limit _ none 0 (some 1) hleaves).2.2 hendless
  rw [if_neg (by decide)] at hgives
  exact ⟨hleaves, hendless, hgives⟩

/-- Under the greatest limit the whirlpool brings the count out of its range, and the advance does
not give up with its limit. -/
theorem rim_overflows :
    Endless (sea greatestLimit) ((onRim greatestLimit).place (some 1)) ∧
      (∃ l, Counted.Rounds (sea greatestLimit) ⟨0, (onRim greatestLimit).place (some 1)⟩ l ∧
        l.Overflows) ∧
      ((onRim greatestLimit).advance none).1 ≠ .error (.stepLimit greatestLimit) := by
  have hendless := onRim_endless greatestLimit
  have hover : ∃ l, Counted.Rounds (sea greatestLimit)
      ⟨0, (onRim greatestLimit).place (some 1)⟩ l ∧ l.Overflows :=
    Counted.overflows_iff.mpr ⟨rfl, hendless.meets _⟩
  have hanswer := (Traversal.advance_overflow_iff (onRim_leaves greatestLimit)).mpr hover
  refine ⟨hendless, hover, ?_⟩
  rw [hanswer]
  exact nofun

end Storyline

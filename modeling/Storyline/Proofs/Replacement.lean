import Mathlib.Data.List.Infix
import Storyline.Text.Search

/-! # How a name is replaced

Replacing reads a text from left to right: at an occurrence of the name it puts the value and goes
on behind, anywhere else it keeps one character. Two names whose occurrences cannot touch each other
can be replaced in either order, if their values bring in no character of a name.
-/
namespace Storyline.Text

variable {name value other otherValue rest : List Char}

@[simp] theorem replaceAll_nil : replaceAll name value [] = [] := by
  unfold replaceAll
  split <;> rfl

theorem replaceFrom_skip (skip : Nat) (text : List Char) :
    replaceFrom name value skip text = replaceFrom name value 0 (text.drop skip) := by
  induction text generalizing skip with
  | nil => simp [replaceFrom]
  | cons c rest ih =>
    cases skip with
    | zero => rfl
    | succ skip => simpa [replaceFrom] using ih skip

theorem replaceAll_found (hname : name ≠ []) :
    replaceAll name value (name ++ rest) = value ++ replaceAll name value rest := by
  obtain ⟨c, tail, rfl⟩ := List.exists_cons_of_ne_nil hname
  have hbegins : (c :: tail).isPrefixOf (c :: (tail ++ rest)) := by simp
  simp only [replaceAll, List.isEmpty_cons, Bool.false_eq_true, if_false, List.cons_append,
    replaceFrom, if_pos hbegins]
  rw [replaceFrom_skip]
  simp

theorem replaceAll_kept {c : Char} (h : ¬ name <+: c :: rest) :
    replaceAll name value (c :: rest) = c :: replaceAll name value rest := by
  have hname : ¬ name.isEmpty := fun he => h (by simp [List.isEmpty_iff.mp he])
  have hbegins : ¬ name.isPrefixOf (c :: rest) := fun hp => h (List.isPrefixOf_iff_prefix.mp hp)
  simp [replaceAll, hname, replaceFrom, hbegins]

theorem length_behind_lt (hname : name ≠ []) : rest.length < (name ++ rest).length := by
  have := List.length_pos_iff.mpr hname
  rw [List.length_append]
  omega

/-- A text is read for a name at an occurrence, or at a character where the name does not begin. -/
theorem reading (hname : name ≠ []) {motive : List Char → Prop} (nil : motive [])
    (found : ∀ rest, motive rest → motive (name ++ rest))
    (kept : ∀ c rest, ¬ name <+: c :: rest → motive rest → motive (c :: rest))
    (text : List Char) : motive text := by
  -- an occurrence may be several characters long
  induction hn : text.length using Nat.strong_induction_on generalizing text with
  | _ n ih =>
    subst hn
    cases text with
    | nil => exact nil
    | cons c rest =>
      by_cases hbegins : name <+: c :: rest
      · obtain ⟨behind, hbehind⟩ := hbegins
        rw [← hbehind] at ih ⊢
        exact found behind (ih _ (length_behind_lt hname) behind rfl)
      · exact kept c rest hbegins (ih _ (Nat.lt_succ_self _) rest rfl)

theorem replaceAll_append {before : List Char}
    (h : ∀ s, s ≠ [] → s <:+ before → ¬ name <+: s ++ rest) :
    replaceAll name value (before ++ rest) = before ++ replaceAll name value rest := by
  induction before with
  | nil => rfl
  | cons c tail ih =>
    have hc : ¬ name <+: c :: (tail ++ rest) := h (c :: tail) (List.cons_ne_nil _ _) List.suffix_rfl
    have htail := ih fun s hs hsuffix => h s hs (hsuffix.trans (List.suffix_cons c tail))
    calc replaceAll name value (c :: (tail ++ rest))
        = c :: replaceAll name value (tail ++ rest) := replaceAll_kept hc
      _ = c :: tail ++ replaceAll name value rest := by rw [htail, List.cons_append]

/-- No character of the value occurs in the name. -/
def Foreign (value name : List Char) : Prop := ∀ c ∈ value, c ∉ name

-- through the characters of the value, not through all that there are
instance : Decidable (Foreign value name) := List.decidableBAll (· ∉ name) value

theorem Foreign.not_prefix (h : Foreign value name) (hname : name ≠ []) {s : List Char}
    (hs : s ≠ []) (hsuffix : s <:+ value) : ¬ name <+: s ++ rest := by
  obtain ⟨c, tail, rfl⟩ := List.exists_cons_of_ne_nil hs
  obtain ⟨d, nameTail, rfl⟩ := List.exists_cons_of_ne_nil hname
  intro hbegins
  have hcd : d = c := (List.cons_prefix_cons.mp hbegins).1
  exact h c (hsuffix.subset List.mem_cons_self) (hcd ▸ List.mem_cons_self)

/-- A beginning of the new text without characters of the value was there before: characters that
come together by a replacement have the value between them. -/
theorem prefix_of_prefix_replaceAll (hname : name ≠ []) (hvalue : value ≠ []) {text p : List Char}
    (hp : Foreign value p) (h : p <+: replaceAll name value text) : p <+: text := by
  induction text generalizing p with
  | nil => simpa using h
  | cons c rest ih =>
    cases p with
    | nil => exact List.nil_prefix
    | cons d tail =>
      by_cases hfound : name <+: c :: rest
      · obtain ⟨behind, hbehind⟩ := hfound
        rw [← hbehind, replaceAll_found hname] at h
        exact absurd h (hp.not_prefix (List.cons_ne_nil d tail) hvalue List.suffix_rfl)
      · rw [replaceAll_kept hfound, List.cons_prefix_cons] at h
        have htail : Foreign value tail := fun x hx hm => hp x hx (List.mem_cons_of_mem d hm)
        exact List.cons_prefix_cons.mpr ⟨h.1, ih htail h.2⟩

/-- The name is no part of the other one, and does not end as the other one begins. -/
structure Apart (name other : List Char) : Prop where
  outside : ¬ name <:+: other
  clear : ∀ s, s ≠ [] → s ≠ name → s <:+ name → ¬ s <+: other

theorem apart_iff :
    Apart name other ↔
      ¬ name <:+: other ∧ ∀ s ∈ name.tails, s ≠ [] → s ≠ name → ¬ s <+: other := by
  constructor
  · exact fun h => ⟨h.outside, fun s hs hne hall =>
      h.clear s hne hall ((List.mem_tails s name).mp hs)⟩
  · exact fun h => ⟨h.1, fun s hne hall hs => h.2 s ((List.mem_tails s name).mpr hs) hne hall⟩

instance : Decidable (Apart name other) := decidable_of_iff' _ apart_iff

theorem Apart.not_prefix (h : Apart name other) (h' : Apart other name) {s : List Char}
    (hs : s ≠ []) (hsuffix : s <:+ name) : ¬ other <+: s ++ rest := by
  intro hbegins
  rcases List.prefix_or_prefix_of_prefix hbegins (List.prefix_append s rest) with hin | hover
  · exact h'.outside (hin.isInfix.trans hsuffix.isInfix)
  · by_cases hall : s = name
    · subst hall
      exact h.outside hover.isInfix
    · exact h.clear s hs hall hsuffix hover

theorem replaceAll_found_both (hname : name ≠ []) (hother : other ≠ []) (h : Apart name other)
    (h' : Apart other name) (hforeign : Foreign value other) (otherValue rest : List Char) :
    replaceAll other otherValue (replaceAll name value (name ++ rest)) =
        value ++ replaceAll other otherValue (replaceAll name value rest) ∧
      replaceAll name value (replaceAll other otherValue (name ++ rest)) =
        value ++ replaceAll name value (replaceAll other otherValue rest) := by
  constructor
  · rw [replaceAll_found hname, replaceAll_append fun s hs hsuffix =>
      hforeign.not_prefix hother hs hsuffix]
  · rw [replaceAll_append fun s hs hsuffix => h.not_prefix h' hs hsuffix, replaceAll_found hname]

theorem replaceAll_kept_both {c : Char} (hname : name ≠ []) (hother : other ≠ [])
    (hvalue : value ≠ []) (hforeign : Foreign value other) (hfirst : ¬ name <+: c :: rest)
    (hsecond : ¬ other <+: c :: rest) :
    replaceAll other otherValue (replaceAll name value (c :: rest)) =
      c :: replaceAll other otherValue (replaceAll name value rest) := by
  rw [replaceAll_kept hfirst]
  refine replaceAll_kept fun hbegins => hsecond ?_
  obtain ⟨d, tail, rfl⟩ := List.exists_cons_of_ne_nil hother
  obtain ⟨rfl, htail⟩ := List.cons_prefix_cons.mp hbegins
  have htailForeign : Foreign value tail := fun x hx hm =>
    hforeign x hx (List.mem_cons_of_mem d hm)
  exact List.cons_prefix_cons.mpr
    ⟨rfl, prefix_of_prefix_replaceAll hname hvalue htailForeign htail⟩

theorem replaceAll_comm (hname : name ≠ []) (hother : other ≠ []) (hvalue : value ≠ [])
    (hotherValue : otherValue ≠ []) (h : Apart name other) (h' : Apart other name)
    (hforeign : Foreign value other) (hforeign' : Foreign otherValue name) (text : List Char) :
    replaceAll other otherValue (replaceAll name value text) =
      replaceAll name value (replaceAll other otherValue text) := by
  -- both orders read the text together, and an occurrence may be several characters long
  induction hn : text.length using Nat.strong_induction_on generalizing text with
  | _ n ih =>
    subst hn
    cases text with
    | nil => simp
    | cons c rest =>
      by_cases hfirst : name <+: c :: rest
      · obtain ⟨behind, hbehind⟩ := hfirst
        rw [← hbehind] at ih ⊢
        have hboth := replaceAll_found_both hname hother h h' hforeign otherValue behind
        rw [hboth.1, hboth.2, ih _ (length_behind_lt hname) behind rfl]
      · by_cases hsecond : other <+: c :: rest
        · obtain ⟨behind, hbehind⟩ := hsecond
          rw [← hbehind] at ih ⊢
          have hboth := replaceAll_found_both hother hname h' h hforeign' value behind
          rw [hboth.1, hboth.2, ih _ (length_behind_lt hother) behind rfl]
        · rw [replaceAll_kept_both hname hother hvalue hforeign hfirst hsecond,
            replaceAll_kept_both hother hname hotherValue hforeign' hsecond hfirst,
            ih _ (Nat.lt_succ_self _) rest rfl]

end Storyline.Text

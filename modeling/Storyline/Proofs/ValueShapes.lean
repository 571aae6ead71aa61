import Mathlib.Data.List.Count
import Mathlib.Data.List.Forall2
import Storyline.Document.Decode

/-! # Shapes of values

What the parts of a node look like as JSON values, told by what an object gives under its keys and
not by how it is read. Each decoder accepts exactly the values of one shape and makes of them what
they show.
-/
namespace Storyline

open Json (Literal Value field? namedMembers)
open Number (ofDigits)

namespace Schema

def Keyed (members : List (Option String × Value)) : Prop := none ∉ members.map (·.1)

/-- No member has that key. -/
def Absent (members : List (Option String × Value)) (name : String) : Prop :=
  some name ∉ members.map (·.1)

structure Once (members : List (Option String × Value)) (name : String) (v : Value) : Prop where
  given : (some name, v) ∈ members
  single : (members.map (·.1)).count (some name) = 1

/-- What is given under a key that may be left out. -/
inductive Field (members : List (Option String × Value)) (name : String) : Option Value → Prop where
  | once {v} : Once members name v → Field members name (some v)
  | absent : Absent members name → Field members name none

/-- A record is an object with the fields `names`, whatever else it holds, or an array of values for
the first of them. -/
inductive Record (names : List String) : Value → List (Option Value) → Prop where
  | object {members given} : Keyed members → List.Forall₂ (Field members) names given →
      Record names (.object members) given
  | array {items} : items.length ≤ names.length →
      Record names (.array items)
        (items.map some ++ List.replicate (names.length - items.length) none)

def IsText (v : Value) (text : String) : Prop := v = .string (some text)

/-- An integer is written by its digits alone, behind a minus sign if it is less than zero; so `-0`
is none. -/
structure WritesInteger (l : Literal) (n : Int) : Prop where
  no_fraction : l.fraction = []
  no_exponent : l.exponent = none
  minus : l.negative ↔ n < 0
  size : ofDigits l.whole = n.natAbs

def IsInteger (v : Value) (n : Int64) : Prop := ∃ l, v = .number l ∧ WritesInteger l n.toInt

/-- A link that may be absent or null. -/
inductive IsLink : Option Value → Option NodeId → Prop where
  | absent : IsLink none none
  | null : IsLink (some .null) none
  | target {v id} : IsInteger v id → IsLink (some v) (some id)

def IsList (item : Value → α → Prop) (v : Value) (l : List α) : Prop :=
  ∃ items, v = .array items ∧ List.Forall₂ item items l

def IsEntry (v : Value) (e : Entry) : Prop :=
  ∃ name value, Record ["name", "value"] v [some name, some value] ∧
    IsText name e.name ∧ IsText value e.value

def IsAssignment (v : Value) (a : Assignment) : Prop :=
  ∃ target symbol literal,
    Record ["variable", "operator", "value"] v [some target, some symbol, some literal] ∧
      IsText target a.target ∧ IsText symbol a.symbol ∧ IsText literal a.literal

def IsComparison (v : Value) (c : Comparison) : Prop :=
  ∃ subject symbol literal,
    Record ["variable", "operator", "value"] v [some subject, some symbol, some literal] ∧
      IsText subject c.subject ∧ IsText symbol c.symbol ∧ IsText literal c.literal

def IsChoice (v : Value) (c : Choice) : Prop :=
  ∃ text target, Record ["choiceString", "linksTo"] v [some text, target] ∧
    IsText text c.text ∧ IsLink target c.link

/-- Its name, or an object whose only key is the name and whose value holds nothing. -/
inductive IsMode : Value → RouteMode → Prop where
  | name (m : RouteMode) : IsMode (.string (some m.name)) m
  | null (m : RouteMode) : IsMode (.object [(some m.name, .null)]) m
  | empty (m : RouteMode) : IsMode (.object [(some m.name, .object [])]) m

def IsGuardedRoute (v : Value) (r : GuardedRoute) : Prop :=
  ∃ comparisons mode target,
    Record ["comparisons", "mode", "linksTo"] v [some comparisons, some mode, some target] ∧
      IsList IsComparison comparisons r.comparisons ∧ IsMode mode r.mode ∧
      IsInteger target r.target

def IsChanceRoute (v : Value) (r : ChanceRoute) : Prop :=
  ∃ weight target, Record ["weight", "linksTo"] v [some weight, some target] ∧
    IsText weight r.weight ∧ IsInteger target r.target

/-- Its name, or its position among all kinds. -/
inductive IsKind : Value → Kind → Prop where
  | name (k : Kind) : IsKind (.string (some k.name)) k
  | position {l k} (i : Nat) : WritesInteger l i → Kind.all[i]? = some k → IsKind (.number l) k

section Named

def texts (named : List (String × Value)) : List (Option String × Value) :=
  named.map fun (name, v) => (some name, v)

variable {members : List (Option String × Value)} {named : List (String × Value)} {name : String}
  {v : Value}

theorem mem_texts : (some name, v) ∈ texts named ↔ (name, v) ∈ named := by
  simp [texts]

theorem texts_keys : (texts named).map (·.1) = (named.map (·.1)).map some := by
  simp [texts]

theorem texts_keyed : Keyed (texts named) := by
  simp [Keyed, texts_keys]

theorem namedMembers_iff : namedMembers members = some named ↔ members = texts named := by
  induction members generalizing named with
  | nil => cases named <;> simp [namedMembers, texts]
  | cons m rest ih =>
    obtain ⟨key, v⟩ := m
    cases key with
    | none => cases named <;> simp [namedMembers, texts]
    | some name =>
      cases named with
      | nil => simp [namedMembers, texts]
      | cons f named =>
        simp only [namedMembers, Option.bind_some, Option.map_eq_some_iff, ih]
        simp [texts, Prod.ext_iff, and_comm, eq_comm]

theorem keyed_iff : Keyed members ↔ ∃ named, members = texts named := by
  constructor
  · intro h
    induction members with
    | nil => exact ⟨[], rfl⟩
    | cons m rest ih =>
      obtain ⟨key, v⟩ := m
      simp only [Keyed, List.map_cons, List.mem_cons, not_or] at h
      obtain ⟨named, rfl⟩ := ih h.2
      obtain ⟨name, rfl⟩ := Option.ne_none_iff_exists'.mp (Ne.symm h.1)
      exact ⟨(name, v) :: named, rfl⟩
  · rintro ⟨named, rfl⟩
    exact texts_keyed

theorem once_iff : Once (texts named) name v ↔ named.filter (·.1 == name) = [(name, v)] := by
  have hcount : ((texts named).map (·.1)).count (some name) =
      (named.filter (·.1 == name)).length := by
    rw [texts_keys, List.count_map_of_injective _ _ (fun _ _ => Option.some.inj),
      List.count_eq_countP, List.countP_map, List.countP_eq_length_filter]
    rfl
  have hmem : (some name, v) ∈ texts named ↔ (name, v) ∈ named.filter (·.1 == name) := by
    simp [mem_texts]
  constructor
  · rintro ⟨hgiven, hsingle⟩
    obtain ⟨f, hf⟩ := List.length_eq_one_iff.mp (hcount ▸ hsingle)
    rw [hmem, hf, List.mem_singleton] at hgiven
    rw [hf, hgiven]
  · intro h
    exact ⟨hmem.mpr (by simp [h]), by simp [hcount, h]⟩

theorem absent_iff : Absent (texts named) name ↔ named.filter (·.1 == name) = [] := by
  simp only [Absent, texts_keys, List.filter_eq_nil_iff, List.mem_map, Option.some.injEq,
    exists_eq_right, beq_iff_eq]
  exact ⟨fun h f hf he => h ⟨f, hf, he⟩, fun h ⟨f, hf, he⟩ => h f hf he⟩

theorem field?_iff {given : Option Value} :
    field? named name = some given ↔ Field (texts named) name given := by
  constructor
  · intro h
    unfold field? at h
    split at h
    · next hnone =>
      cases h
      exact .absent (absent_iff.mpr hnone)
    · next key v hone =>
      cases h
      have hkey : key = name := by
        have hm : (key, v) ∈ named.filter (·.1 == name) := by simp [hone]
        simpa using (List.mem_filter.mp hm).2
      exact .once (once_iff.mpr (hkey ▸ hone))
    · cases h
  · rintro (hone | hnone)
    · simp [field?, once_iff.mp hone]
    · simp [field?, absent_iff.mp hnone]

theorem required_iff {read : Value → Option α} {a : α} :
    Decode.required named name read = some a ↔
      ∃ v, Once (texts named) name v ∧ read v = some a := by
  constructor
  · intro h
    obtain ⟨given, hfield, hread⟩ := Option.bind_eq_some_iff.mp h
    obtain ⟨v, rfl, hv⟩ := Option.bind_eq_some_iff.mp hread
    cases field?_iff.mp hfield with
    | once hone => exact ⟨v, hone, hv⟩
  · rintro ⟨v, hone, hv⟩
    simp [Decode.required, field?_iff.mpr (.once hone), hv]

end Named

theorem mapM_eq_some_iff {f : α → Option β} {l : List α} {m : List β} :
    l.mapM f = some m ↔ List.Forall₂ (fun a b => f a = some b) l m := by
  induction l generalizing m with
  | nil => simp [eq_comm]
  | cons a rest ih =>
    simp only [List.mapM_cons, List.forall₂_cons_left_iff, Option.bind_eq_bind,
      Option.bind_eq_some_iff, Option.pure_def, Option.some.injEq, ih, exists_and_left,
      eq_comm (a := m)]

variable {v : Value}

theorem record_iff {names : List String} {given : List (Option Value)} :
    v.record? names = some given ↔ Record names v given := by
  constructor
  · intro h
    cases v with
    | object members =>
      obtain ⟨named, hnamed, hread⟩ := Option.bind_eq_some_iff.mp h
      obtain rfl := namedMembers_iff.mp hnamed
      exact .object texts_keyed ((mapM_eq_some_iff.mp hread).imp fun _ _ => field?_iff.mp)
    | array items =>
      rw [Value.record?, Option.ite_none_right_eq_some] at h
      obtain ⟨hle, h⟩ := h
      cases h
      exact .array hle
    | _ => cases h
  · intro h
    cases h with
    | object hkeyed hfields =>
      obtain ⟨named, rfl⟩ := keyed_iff.mp hkeyed
      have hread : names.mapM (field? named) = some given :=
        mapM_eq_some_iff.mpr (hfields.imp fun _ _ => field?_iff.mpr)
      simp [Value.record?, namedMembers_iff.mpr rfl, hread]
    | array hle => simp [Value.record?, hle]

theorem text_iff {text : String} : v.text? = some text ↔ IsText v text := by
  cases v <;> simp [Value.text?, IsText]

theorem writesInteger_iff {l : Literal} {n : Int} :
    l.integer? = some n ↔ WritesInteger l n := by
  obtain ⟨negative, whole, fraction, exponent⟩ := l
  constructor
  · intro h
    simp only [Literal.integer?, Option.ite_none_left_eq_some, Bool.or_eq_true,
      Bool.not_eq_true', Bool.and_eq_true, beq_iff_eq, not_or, Bool.not_eq_false,
      List.isEmpty_iff, Option.not_isSome_iff_eq_none, Option.some.injEq] at h
    obtain ⟨⟨⟨rfl, rfl⟩, hzero⟩, rfl⟩ := h
    cases negative with
    | false => exact ⟨rfl, rfl, by simp, by simp⟩
    | true =>
      have hgiven : ofDigits whole ≠ 0 := by simpa using hzero
      exact ⟨rfl, rfl, by simpa using Nat.pos_of_ne_zero hgiven, by simp⟩
  · rintro ⟨rfl, rfl, hminus, hsize⟩
    dsimp only at hminus hsize
    cases negative with
    | false =>
      have hvalue : (n.natAbs : Int) = n := Int.natAbs_of_nonneg (by simpa using hminus)
      have hread : Literal.integer? ⟨false, whole, [], none⟩ = some (ofDigits whole : Int) := rfl
      rw [hread, hsize, hvalue]
    | true =>
      have hbelow : n < 0 := by simpa using hminus
      have hvalue : -(n.natAbs : Int) = n := by omega
      have hgiven : ofDigits whole ≠ 0 := by omega
      have hread : Literal.integer? ⟨true, whole, [], none⟩ = some (-(ofDigits whole : Int)) := by
        simp [Literal.integer?, hgiven]
      rw [hread, hsize, hvalue]

theorem integer_iff {n : Int64} : v.int64? = some n ↔ IsInteger v n := by
  cases v with
  | number l =>
    simp only [Value.int64?, IsInteger, Option.bind_eq_some_iff, Option.ite_none_right_eq_some,
      Value.number.injEq, Option.some.injEq, exists_eq_left', ← writesInteger_iff]
    constructor
    · rintro ⟨i, hi, ⟨hlo, hhi⟩, rfl⟩
      have hmax : Int64.maxValue.toInt = 2 ^ 63 - 1 := rfl
      rw [hi, Int64.toInt_ofInt_of_le hlo (by omega)]
    · intro h
      exact ⟨n.toInt, h, ⟨n.minValue_le_toInt, n.toInt_le⟩, Int64.ofInt_toInt n⟩
  | _ => simp [Value.int64?, IsInteger]

theorem link_iff {given : Option Value} {link : Option NodeId} :
    Decode.link given = some link ↔ IsLink given link := by
  constructor
  · intro h
    unfold Decode.link at h
    split at h
    · cases h
      exact .absent
    · cases h
      exact .null
    · next v _ =>
      obtain ⟨id, hid, rfl⟩ := Option.map_eq_some_iff.mp h
      exact .target (integer_iff.mp hid)
  · rintro (_ | _ | ⟨hid⟩)
    · rfl
    · rfl
    · next v id =>
      have hread := integer_iff.mpr hid
      cases v with
      | null => cases hread
      | _ => simp [Decode.link, hread]

theorem list_iff {read : Value → Option α} {item : Value → α → Prop}
    (h : ∀ {v a}, read v = some a ↔ item v a) {l : List α} :
    Decode.list read v = some l ↔ IsList item v l := by
  cases v with
  | array items =>
    have hitem : (fun v a => read v = some a) = item := by
      funext v a
      exact propext h
    have hitems : items.mapM read = some l ↔ List.Forall₂ item items l := by
      rw [mapM_eq_some_iff, hitem]
    simpa [Decode.list, Value.items?, IsList] using hitems
  | _ => simp [Decode.list, Value.items?, IsList]

theorem entry_iff {e : Entry} : Decode.entry v = some e ↔ IsEntry v e := by
  obtain ⟨name, value⟩ := e
  simp only [IsEntry, ← record_iff, ← text_iff]
  unfold Decode.entry
  split
  · next hrecord => simp [hrecord, Option.bind_eq_some_iff]
  · next hnone =>
    simp only [reduceCtorEq, false_iff]
    rintro ⟨_, _, hrecord, _⟩
    exact hnone _ _ hrecord

theorem assignment_iff {a : Assignment} : Decode.assignment v = some a ↔ IsAssignment v a := by
  obtain ⟨target, symbol, literal⟩ := a
  simp only [IsAssignment, ← record_iff, ← text_iff]
  unfold Decode.assignment
  split
  · next hrecord => simp [hrecord, Option.bind_eq_some_iff]
  · next hnone =>
    simp only [reduceCtorEq, false_iff]
    rintro ⟨_, _, _, hrecord, _⟩
    exact hnone _ _ _ hrecord

theorem comparison_iff {c : Comparison} : Decode.comparison v = some c ↔ IsComparison v c := by
  obtain ⟨subject, symbol, literal⟩ := c
  simp only [IsComparison, ← record_iff, ← text_iff]
  unfold Decode.comparison
  split
  · next hrecord => simp [hrecord, Option.bind_eq_some_iff]
  · next hnone =>
    simp only [reduceCtorEq, false_iff]
    rintro ⟨_, _, _, hrecord, _⟩
    exact hnone _ _ _ hrecord

theorem choice_iff {c : Choice} : Decode.choice v = some c ↔ IsChoice v c := by
  obtain ⟨text, link⟩ := c
  simp only [IsChoice, ← record_iff, ← text_iff, ← link_iff]
  unfold Decode.choice
  split
  · next hrecord => simp [hrecord, Option.bind_eq_some_iff]
  · next hnone =>
    simp only [reduceCtorEq, false_iff]
    rintro ⟨_, _, hrecord, _⟩
    exact hnone _ _ hrecord

theorem ofName?_mode_iff {text : String} {m : RouteMode} :
    RouteMode.ofName? text = some m ↔ text = m.name := by
  constructor
  · intro h
    have hname := List.find?_some h
    exact (eq_of_beq hname).symm
  · rintro rfl
    cases m <;> rfl

theorem ofName?_kind_iff {text : String} {k : Kind} :
    Kind.ofName? text = some k ↔ text = k.name := by
  constructor
  · intro h
    have hname := List.find?_some h
    exact (eq_of_beq hname).symm
  · rintro rfl
    exact k.ofName?_name

theorem mode_iff {m : RouteMode} : Decode.mode Decode.isVoid v = some m ↔ IsMode v m := by
  constructor
  · intro h
    unfold Decode.mode at h
    split at h
    · next text =>
      obtain ⟨name, rfl, hname⟩ := Option.bind_eq_some_iff.mp h
      obtain rfl := ofName?_mode_iff.mp hname
      exact .name m
    · next key inner =>
      obtain ⟨hvoid, h⟩ := Option.ite_none_right_eq_some.mp h
      obtain ⟨name, rfl, hname⟩ := Option.bind_eq_some_iff.mp h
      obtain rfl := ofName?_mode_iff.mp hname
      unfold Decode.isVoid at hvoid
      split at hvoid
      · exact .null m
      · exact .empty m
      · cases hvoid
    · cases h
  · have hname : RouteMode.ofName? m.name = some m := ofName?_mode_iff.mpr rfl
    rintro (_ | _ | _) <;> simp [Decode.mode, Decode.isVoid, hname]

theorem guardedRoute_iff {r : GuardedRoute} :
    Decode.guardedRoute v = some r ↔ IsGuardedRoute v r := by
  obtain ⟨comparisons, mode, target⟩ := r
  simp only [IsGuardedRoute, ← record_iff, ← list_iff comparison_iff, ← mode_iff, ← integer_iff]
  unfold Decode.guardedRoute
  split
  · next hrecord => simp [hrecord, Option.bind_eq_some_iff]
  · next hnone =>
    simp only [reduceCtorEq, false_iff]
    rintro ⟨_, _, _, hrecord, _⟩
    exact hnone _ _ _ hrecord

theorem chanceRoute_iff {r : ChanceRoute} : Decode.chanceRoute v = some r ↔ IsChanceRoute v r := by
  obtain ⟨weight, target⟩ := r
  simp only [IsChanceRoute, ← record_iff, ← text_iff, ← integer_iff]
  unfold Decode.chanceRoute
  split
  · next hrecord => simp [hrecord, Option.bind_eq_some_iff]
  · next hnone =>
    simp only [reduceCtorEq, false_iff]
    rintro ⟨_, _, hrecord, _⟩
    exact hnone _ _ hrecord

theorem kind_iff {k : Kind} : Decode.kind v = some k ↔ IsKind v k := by
  constructor
  · intro h
    cases v with
    | string text =>
      obtain ⟨name, rfl, hname⟩ := Option.bind_eq_some_iff.mp h
      obtain rfl := ofName?_kind_iff.mp hname
      exact .name k
    | number l =>
      obtain ⟨n, hn, h⟩ := Option.bind_eq_some_iff.mp h
      obtain ⟨hpos, hk⟩ := Option.ite_none_right_eq_some.mp h
      rw [← Int.toNat_of_nonneg hpos] at hn
      exact .position n.toNat (writesInteger_iff.mp hn) hk
    | _ => cases h
  · rintro (_ | ⟨i, hi, hk⟩)
    · exact ofName?_kind_iff.mpr rfl
    · simp [Decode.kind, writesInteger_iff.mpr hi, hk]

end Schema
end Storyline

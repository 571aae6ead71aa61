import Storyline.Json.Text
import Storyline.Proofs.JsonTokens

/-! # Values are read back

The compact text of a value reads as the same value: its tokens are read back, since a bracket or a
comma closes every number, and they take the reader from the open frames around the value to the
same frames with the value in them.
-/
namespace Storyline.Json

namespace Value

def Canonical (v : Value) : Prop := ∀ l, Token.number l ∈ v.toTokens → l.Canonical

theorem number_mem_items {l : Literal} {items : List Value} :
    Token.number l ∈ itemTokens items ↔ ∃ v ∈ items, Token.number l ∈ v.toTokens := by
  match items with
  | [] => simp [itemTokens]
  | [item] => simp [itemTokens]
  | item :: next :: rest =>
    rw [itemTokens, List.mem_append, List.mem_cons, @number_mem_items l (next :: rest)]
    simp

theorem number_mem_members {l : Literal} {members : List (Option String × Value)} :
    Token.number l ∈ memberTokens members ↔ ∃ m ∈ members, Token.number l ∈ m.2.toTokens := by
  match members with
  | [] => simp [memberTokens]
  | [(key, v)] => simp [memberTokens]
  | (key, v) :: next :: rest =>
    rw [memberTokens, List.mem_cons, List.mem_cons, List.mem_append, List.mem_cons,
      @number_mem_members l (next :: rest)]
    simp

mutual

theorem readBack (v : Value) (hv : v.Canonical) : ReadBack v.toTokens := by
  match v with
  | .null | .bool _ | .string _ => exact ReadBack.nil.cons (by simp)
  | .number l => exact .number (hv l (by simp [toTokens]))
  | .array items =>
    have h := readBack_items items fun v hm l hl =>
      hv l (by simp [toTokens, number_mem_items.mpr ⟨v, hm, hl⟩])
    exact (h.append (Or.inr (Or.inl rfl)) .nil).cons (by simp)
  | .object members =>
    have h := readBack_members members fun m hm l hl =>
      hv l (by simp [toTokens, number_mem_members.mpr ⟨m, hm, hl⟩])
    exact (h.append (Or.inr (Or.inr rfl)) .nil).cons (by simp)

theorem readBack_items (items : List Value) (hv : ∀ v ∈ items, v.Canonical) :
    ReadBack (itemTokens items) := by
  match items with
  | [] => exact .nil
  | [item] => exact readBack item (hv item List.mem_cons_self)
  | item :: next :: rest =>
    have h := readBack item (hv item List.mem_cons_self)
    have hrest := readBack_items (next :: rest) fun v hm => hv v (List.mem_cons_of_mem item hm)
    exact h.append (Or.inl rfl) hrest

theorem readBack_members (members : List (Option String × Value))
    (hv : ∀ m ∈ members, m.2.Canonical) : ReadBack (memberTokens members) := by
  match members with
  | [] => exact .nil
  | [(key, v)] =>
    have h := readBack v (hv (key, v) List.mem_cons_self)
    exact (h.cons (by simp)).cons (by simp)
  | (key, v) :: next :: rest =>
    have h := readBack v (hv (key, v) List.mem_cons_self)
    have hrest := readBack_members (next :: rest) fun m hm =>
      hv m (List.mem_cons_of_mem (key, v) hm)
    exact ((h.append (Or.inl rfl) hrest).cons (by simp)).cons (by simp)

end

end Value

namespace Stage

open Value

theorem run_firstItem {items : List Value} (hne : items ≠ []) (outer : List Frame)
    (rest : List Token) :
    (itemTokens items ++ rest).foldlM step (.firstItem outer) =
      (itemTokens items ++ rest).foldlM step (.value (.array [] :: outer)) := by
  match items with
  | [item] => cases item <;> rfl
  | item :: _ :: _ => cases item <;> rfl

theorem run_firstKey {members : List (Option String × Value)} (hne : members ≠ [])
    (outer : List Frame) (rest : List Token) :
    (memberTokens members ++ rest).foldlM step (.firstKey outer) =
      (memberTokens members ++ rest).foldlM step (.nextKey [] outer) := by
  match members with
  | [_] => rfl
  | _ :: _ :: _ => rfl

mutual

theorem run_value (v : Value) (outer : List Frame) (rest : List Token) :
    (v.toTokens ++ rest).foldlM step (.value outer) = rest.foldlM step (close v outer) := by
  -- The open frames stay free: an item is read inside the frame of its array, which holds the items
  -- before it.
  match v with
  | .null | .bool _ | .string _ | .number _ => rfl
  | .array items =>
    by_cases hne : items = []
    · subst hne
      rfl
    · calc ((Value.array items).toTokens ++ rest).foldlM step (.value outer)
          = (itemTokens items ++ .endArray :: rest).foldlM step (.firstItem outer) := by
            rw [toTokens, List.cons_append, List.append_assoc]
            rfl
        _ = (itemTokens items ++ .endArray :: rest).foldlM step (.value (.array [] :: outer)) :=
            run_firstItem hne outer _
        _ = rest.foldlM step (close (.array items) outer) := run_items items hne [] outer rest
  | .object members =>
    by_cases hne : members = []
    · subst hne
      rfl
    · calc ((Value.object members).toTokens ++ rest).foldlM step (.value outer)
          = (memberTokens members ++ .endObject :: rest).foldlM step (.firstKey outer) := by
            rw [toTokens, List.cons_append, List.append_assoc]
            rfl
        _ = (memberTokens members ++ .endObject :: rest).foldlM step (.nextKey [] outer) :=
            run_firstKey hne outer _
        _ = rest.foldlM step (close (.object members) outer) :=
            run_members members hne [] outer rest

theorem run_items (items : List Value) (hne : items ≠ []) (done : List Value)
    (outer : List Frame) (rest : List Token) :
    (itemTokens items ++ .endArray :: rest).foldlM step (.value (.array done :: outer)) =
      rest.foldlM step (close (.array (done.reverse ++ items)) outer) := by
  match items with
  | [item] =>
    rw [itemTokens, run_value item, ← List.reverse_cons]
    rfl
  | item :: next :: items =>
    have hrest := run_items (next :: items) (by simp) (item :: done) outer rest
    rw [List.reverse_cons, List.append_assoc] at hrest
    rw [itemTokens, List.append_assoc, run_value item]
    exact hrest

theorem run_members (members : List (Option String × Value)) (hne : members ≠ [])
    (done : List (Option String × Value)) (outer : List Frame) (rest : List Token) :
    (memberTokens members ++ .endObject :: rest).foldlM step (.nextKey done outer) =
      rest.foldlM step (close (.object (done.reverse ++ members)) outer) := by
  match members with
  | [(key, v)] =>
    have hv := run_value v (.object done key :: outer) (.endObject :: rest)
    rw [← List.reverse_cons]
    exact hv
  | (key, v) :: next :: members =>
    have hv := run_value v (.object done key :: outer)
      (.comma :: (memberTokens (next :: members) ++ .endObject :: rest))
    have hrest := run_members (next :: members) (by simp) ((key, v) :: done) outer rest
    rw [List.reverse_cons, List.append_assoc] at hrest
    rw [memberTokens, List.cons_append, List.cons_append, List.append_assoc]
    exact hv.trans hrest

end

end Stage

namespace Value

theorem ofTokens?_toTokens (v : Value) : ofTokens? v.toTokens = some v := by
  have h := Stage.run_value v [] []
  rw [List.append_nil] at h
  simp [ofTokens?, h, Stage.close]

theorem read_write {v : Value} (hv : v.Canonical) : read v.write = some v := by
  have h := v.readBack hv [] (by simp [Literal.Stops])
  simp only [List.append_nil, tokens, Option.map_some] at h
  simp [read, write, h, ofTokens?_toTokens]

end Value
end Storyline.Json

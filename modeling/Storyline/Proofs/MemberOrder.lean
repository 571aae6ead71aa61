import Storyline.Proofs.NodeSchema

/-! # Order and foreign members

What an object shows as a node depends on its keys only through what is given under the few that
belong to the node. So the members may stand in any order, `type` last included, and members of
other kinds or of none may stand between them, more than once if need be.
-/
namespace Storyline

open Json (Value)

def Kind.fields : Kind → List String
  | .start => ["name", "linksTo"]
  | .dialog => ["dialogSource", "dialogString", "linksTo"]
  | .choice => ["choices"]
  | .function => ["statement", "linksTo"]
  | .ending => []
  | .update => ["assignments", "linksTo"]
  | .conditional => ["routes", "defaultRouteLinksTo"]
  | .probability => ["routes"]
  | .teleport => ["destinationExperience", "destinationStartNode"]

namespace Schema

/-- A decodable member whose key is none of those that all nodes have and none of the fields of the
kind that the object names. -/
def Foreign (depth : Nat) (members : List (Option String × Value)) (m : Option String × Value) :
    Prop :=
  ∃ name v, m = (some name, v) ∧ name ∉ ["id", "properties", "type"] ∧
    (∀ tag k, Once members "type" tag → IsKind tag k → name ∉ k.fields) ∧ v.decodable depth

variable {depth : Nat} {members other foreign : List (Option String × Value)} {name : String}
  {given : Option Value}

section Fields

theorem field_congr (hmem : ∀ v, (some name, v) ∈ members ↔ (some name, v) ∈ other)
    (hcount : (members.map (·.1)).count (some name) = (other.map (·.1)).count (some name)) :
    Field members name given ↔ Field other name given := by
  have honce : ∀ v, Once members name v ↔ Once other name v := by
    intro v
    constructor
    · intro h
      exact ⟨(hmem v).mp h.given, hcount ▸ h.single⟩
    · intro h
      exact ⟨(hmem v).mpr h.given, hcount ▸ h.single⟩
  have habsent : Absent members name ↔ Absent other name := by
    rw [Absent, Absent, ← List.count_eq_zero, ← List.count_eq_zero, hcount]
  constructor
  · rintro (h | h)
    · exact .once ((honce _).mp h)
    · exact .absent (habsent.mp h)
  · rintro (h | h)
    · exact .once ((honce _).mpr h)
    · exact .absent (habsent.mpr h)

theorem field_perm (h : members.Perm other) : Field members name given ↔ Field other name given :=
  field_congr (fun _ => h.mem_iff) ((h.map _).count_eq _)

theorem field_append (h : Absent foreign name) :
    Field (members ++ foreign) name given ↔ Field members name given := by
  have hmem : ∀ v, (some name, v) ∉ foreign := by
    intro v hv
    exact h (List.mem_map_of_mem (f := (·.1)) hv)
  refine field_congr (fun v => ?_) ?_
  · simp [hmem v]
  · rw [List.map_append, List.count_append, List.count_eq_zero.mpr h, Nat.add_zero]

theorem field_some_iff {v : Value} : Field members name (some v) ↔ Once members name v := by
  constructor
  · rintro ⟨h⟩
    exact h
  · exact .once

end Fields

section Frame

/-- Whatever one object gives under a key, the other gives too. -/
def Keeps (members other : List (Option String × Value)) (name : String) : Prop :=
  ∀ given, Field members name given → Field other name given

theorem Once.frame {v : Value} (h : Once members name v) (hk : Keeps members other name) :
    Once other name v :=
  field_some_iff.mp (hk _ (.once h))

theorem GivesText.frame {text : String} (h : GivesText members name text)
    (hk : Keeps members other name) : GivesText other name text := by
  obtain ⟨v, hone, hv⟩ := h
  exact ⟨v, hone.frame hk, hv⟩

theorem GivesLink.frame {link : Option NodeId} (h : GivesLink members name link)
    (hk : Keeps members other name) : GivesLink other name link := by
  obtain ⟨given, hfield, hv⟩ := h
  exact ⟨given, hk _ hfield, hv⟩

theorem GivesList.frame {item : Value → α → Prop} {l : List α} (h : GivesList members name item l)
    (hk : Keeps members other name) : GivesList other name item l := by
  obtain ⟨v, hone, hv⟩ := h
  exact ⟨v, hone.frame hk, hv⟩

variable {n : Node}

theorem IsBody.frame (h : IsBody members n.body)
    (hk : ∀ name ∈ n.kind.fields, Keeps members other name) : IsBody other n.body := by
  obtain ⟨id, properties, b⟩ := n
  cases h with
  | start hname htarget =>
    exact .start (hname.frame (hk _ (by decide : "name" ∈ Kind.start.fields)))
      (htarget.frame (hk _ (by decide : "linksTo" ∈ Kind.start.fields)))
  | dialog hspeaker hline htarget =>
    exact .dialog (hspeaker.frame (hk _ (by decide : "dialogSource" ∈ Kind.dialog.fields)))
      (hline.frame (hk _ (by decide : "dialogString" ∈ Kind.dialog.fields)))
      (htarget.frame (hk _ (by decide : "linksTo" ∈ Kind.dialog.fields)))
  | choice hoptions =>
    exact .choice (hoptions.frame (hk _ (by decide : "choices" ∈ Kind.choice.fields)))
  | function hstatement htarget =>
    exact .function (hstatement.frame (hk _ (by decide : "statement" ∈ Kind.function.fields)))
      (htarget.frame (hk _ (by decide : "linksTo" ∈ Kind.function.fields)))
  | ending => exact .ending
  | update hassignments htarget =>
    exact .update (hassignments.frame (hk _ (by decide : "assignments" ∈ Kind.update.fields)))
      (htarget.frame (hk _ (by decide : "linksTo" ∈ Kind.update.fields)))
  | conditional hroutes hfallback =>
    exact .conditional (hroutes.frame (hk _ (by decide : "routes" ∈ Kind.conditional.fields)))
      (hfallback.frame (hk _ (by decide : "defaultRouteLinksTo" ∈ Kind.conditional.fields)))
  | probability hroutes =>
    exact .probability (hroutes.frame (hk _ (by decide : "routes" ∈ Kind.probability.fields)))
  | teleport hexperience hstart =>
    exact .teleport
      (hexperience.frame (hk _ (by decide : "destinationExperience" ∈ Kind.teleport.fields)))
      (hstart.frame (hk _ (by decide : "destinationStartNode" ∈ Kind.teleport.fields)))

theorem IsNode.frame (h : IsNode depth members n) (hkeyed : Keyed other)
    (hk : ∀ name, name ∈ ["id", "properties", "type"] ∨ name ∈ n.kind.fields →
      Keeps members other name)
    (hdecodable : ∀ name v, (some name, v) ∈ other → name ≠ "id" → name ≠ "properties" →
      v.decodable depth) : IsNode depth other n where
  keyed := hkeyed
  id := by
    obtain ⟨v, hone, hv⟩ := h.id
    exact ⟨v, hone.frame (hk "id" (by simp)), hv⟩
  properties := by
    obtain ⟨given, hfield, hv⟩ := h.properties
    exact ⟨given, hk "properties" (by simp) _ hfield, hv⟩
  kind := by
    obtain ⟨v, hone, hv⟩ := h.kind
    exact ⟨v, hone.frame (hk "type" (by simp)), hv⟩
  body := h.body.frame fun name hname => hk name (Or.inr hname)
  decodable := hdecodable

theorem IsNode.perm (h : IsNode depth members n) (hp : members.Perm other) :
    IsNode depth other n := by
  refine h.frame ?_ (fun name _ given => (field_perm hp).mp) fun name v hv => ?_
  · intro hnone
    exact h.keyed ((hp.map _).mem_iff.mpr hnone)
  · exact h.decodable name v (hp.mem_iff.mpr hv)

theorem absent_of_foreign (h : ∀ m ∈ foreign, Foreign depth members m)
    (hname : name ∈ ["id", "properties", "type"] ∨
      ∃ tag k, Once members "type" tag ∧ IsKind tag k ∧ name ∈ k.fields) : Absent foreign name := by
  intro hkey
  obtain ⟨m, hm, hkey⟩ := List.mem_map.mp hkey
  obtain ⟨key, v, rfl, hcommon, hfields, _⟩ := h m hm
  cases hkey
  rcases hname with hname | ⟨tag, k, htag, hk, hname⟩
  · exact hcommon hname
  · exact hfields tag k htag hk hname

theorem keyed_of_foreign (h : ∀ m ∈ foreign, Foreign depth members m) : Keyed foreign := by
  intro hkey
  obtain ⟨m, hm, hkey⟩ := List.mem_map.mp hkey
  obtain ⟨key, v, rfl, _⟩ := h m hm
  cases hkey

theorem isNode_append_iff (h : ∀ m ∈ foreign, Foreign depth members m) :
    IsNode depth (members ++ foreign) n ↔ IsNode depth members n := by
  -- The kind is settled first, since it says which members are foreign.
  have htype : ∀ v, Once (members ++ foreign) "type" v ↔ Once members "type" v := by
    intro v
    rw [← field_some_iff, ← field_some_iff]
    exact field_append (absent_of_foreign h (Or.inl (by simp)))
  have hfields : ∀ tag, Once members "type" tag → IsKind tag n.kind → ∀ name,
      name ∈ ["id", "properties", "type"] ∨ name ∈ n.kind.fields → ∀ given,
      (Field (members ++ foreign) name given ↔ Field members name given) := by
    intro tag htag hk name hname given
    exact field_append (absent_of_foreign h (hname.imp_right fun hf => ⟨tag, _, htag, hk, hf⟩))
  constructor
  · intro hn
    obtain ⟨tag, htag, hk⟩ := hn.kind
    refine hn.frame ?_ (fun name hname given => ?_) fun name v hv => ?_
    · intro hnone
      exact hn.keyed (by simp [hnone])
    · exact (hfields tag ((htype tag).mp htag) hk name hname given).mp
    · exact hn.decodable name v (List.mem_append_left _ hv)
  · intro hn
    obtain ⟨tag, htag, hk⟩ := hn.kind
    refine hn.frame ?_ (fun name hname given => ?_) fun name v hv => ?_
    · intro hnone
      rw [List.map_append, List.mem_append] at hnone
      exact hnone.elim hn.keyed (keyed_of_foreign h)
    · exact (hfields tag htag hk name hname given).mpr
    · rcases List.mem_append.mp hv with hv | hv
      · exact hn.decodable name v hv
      · obtain ⟨key, u, heq, _, _, hdecodable⟩ := h _ hv
        cases heq
        exact fun _ _ => hdecodable

end Frame
end Schema

/-- An object is read as the same node, or as none, in whatever order its members stand. The same
goes for an object with foreign members put in anywhere, as many as there may be. -/
theorem node_read_ignores_order_and_foreign (depth : Nat)
    (members : List (Option String × Value)) :
    (∀ permuted, permuted.Perm members →
      Decode.node depth (.object permuted) = Decode.node depth (.object members)) ∧
    ∀ foreign whole, (∀ m ∈ foreign, Schema.Foreign depth members m) →
      whole.Perm (members ++ foreign) →
      Decode.node depth (.object whole) = Decode.node depth (.object members) := by
  have hperm : ∀ {members permuted : List (Option String × Value)}, permuted.Perm members →
      Decode.node depth (.object permuted) = Decode.node depth (.object members) := by
    intro members permuted hp
    refine Option.ext fun n => ?_
    rw [Schema.node_iff, Schema.node_iff]
    exact ⟨fun h => h.perm hp, fun h => h.perm hp.symm⟩
  refine ⟨fun permuted => hperm, fun foreign whole hforeign hp => ?_⟩
  rw [hperm hp]
  refine Option.ext fun n => ?_
  rw [Schema.node_iff, Schema.node_iff, Schema.isNode_append_iff hforeign]

def gate : List (Option String × Value) :=
  [(some "id", Encode.int 4), (some "name", Encode.text "Gate"), (some "type", Encode.text "start")]

def scraps : List (Option String × Value) :=
  [(some "routes", .null), (some "statement", .array []), (some "routes", .bool true)]

theorem gate_among_scraps :
    (∀ m ∈ scraps, Schema.Foreign 2 gate m) ∧ (scraps ++ gate.reverse).Perm (gate ++ scraps) ∧
    Decode.node 2 (.object gate) = some ⟨4, [], .scene (.start "Gate" none)⟩ ∧
    Decode.node 2 (.object gate.reverse) = some ⟨4, [], .scene (.start "Gate" none)⟩ ∧
    Decode.node 2 (.object (scraps ++ gate.reverse)) =
      some ⟨4, [], .scene (.start "Gate" none)⟩ := by
  have hkind : ∀ tag k, Schema.Once gate "type" tag → Schema.IsKind tag k → k = .start := by
    intro tag k htag hk
    have hgiven := htag.given
    simp only [gate, List.mem_cons, Prod.mk.injEq, Option.some.injEq, String.reduceEq, false_and,
      true_and, List.not_mem_nil, or_false, false_or] at hgiven
    subst hgiven
    have hread := Schema.kind_iff.mpr hk
    exact (Option.some.inj ((Decode.kind_name .start).symm.trans hread)).symm
  have hforeign : ∀ m ∈ scraps, Schema.Foreign 2 gate m := by
    intro m hm
    simp only [scraps, List.mem_cons, List.not_mem_nil, or_false] at hm
    rcases hm with rfl | rfl | rfl
    all_goals
      refine ⟨_, _, rfl, by decide, fun tag k htag hk => ?_, by decide⟩
      rw [hkind tag k htag hk]
      decide
  have hreverse : gate.reverse.Perm gate := gate.reverse_perm
  have hwhole : (scraps ++ gate.reverse).Perm (gate ++ scraps) :=
    (hreverse.append_left scraps).trans List.perm_append_comm
  have hgate : Decode.node 2 (.object gate) = some ⟨4, [], .scene (.start "Gate" none)⟩ := by
    decide +kernel
  obtain ⟨hperm, hput⟩ := node_read_ignores_order_and_foreign 2 gate
  exact ⟨hforeign, hwhole, hgate, (hperm _ hreverse).trans hgate,
    (hput _ _ hforeign hwhole).trans hgate⟩

end Storyline

import Storyline.Proofs.DocumentRoundTrip
import Storyline.Proofs.ValueShapes

/-! # The schema of nodes

The object of a node holds what all nodes have and the fields of its kind. An object is read as a
node exactly if it has that shape, and the node has the contents that the object shows.
-/
namespace Storyline

open Json (Value field? namedMembers)

namespace Schema

section Fields

variable (members : List (Option String × Value)) (name : String)

def GivesText (text : String) : Prop := ∃ v, Once members name v ∧ IsText v text

def GivesLink (link : Option NodeId) : Prop := ∃ given, Field members name given ∧ IsLink given link

def GivesList (item : Value → α → Prop) (l : List α) : Prop :=
  ∃ v, Once members name v ∧ IsList item v l

end Fields

/-- The fields of each kind. What is not a link has to be given. -/
inductive IsBody (members : List (Option String × Value)) : Body → Prop where
  | start {name link} : GivesText members "name" name → GivesLink members "linksTo" link →
      IsBody members (.scene (.start name link))
  | dialog {speaker line link} : GivesText members "dialogSource" speaker →
      GivesText members "dialogString" line → GivesLink members "linksTo" link →
      IsBody members (.scene (.dialog speaker line link))
  | choice {options} : GivesList members "choices" IsChoice options →
      IsBody members (.scene (.choice options))
  | function {statement link} : GivesText members "statement" statement →
      GivesLink members "linksTo" link → IsBody members (.scene (.function statement link))
  | ending : IsBody members (.scene .ending)
  | update {assignments link} : GivesList members "assignments" IsAssignment assignments →
      GivesLink members "linksTo" link → IsBody members (.transit (.update assignments link))
  | conditional {routes fallback} : GivesList members "routes" IsGuardedRoute routes →
      GivesLink members "defaultRouteLinksTo" fallback →
      IsBody members (.transit (.conditional routes fallback))
  | probability {routes} : GivesList members "routes" IsChanceRoute routes →
      IsBody members (.transit (.probability routes))
  | teleport {experience start} : GivesText members "destinationExperience" experience →
      GivesText members "destinationStartNode" start →
      IsBody members (.transit (.teleport experience start))

inductive IsProperties : Option Value → List Entry → Prop where
  | absent : IsProperties none []
  | null : IsProperties (some .null) []
  | list {v entries} : IsList IsEntry v entries → IsProperties (some v) entries

/-- The object of the node `n`. Apart from the id and the properties, whatever it holds is nested
`depth` deep at most and could be decoded. -/
structure IsNode (depth : Nat) (members : List (Option String × Value)) (n : Node) : Prop where
  keyed : Keyed members
  id : ∃ v, Once members "id" v ∧ IsInteger v n.id
  properties : ∃ given, Field members "properties" given ∧ IsProperties given n.properties
  kind : ∃ v, Once members "type" v ∧ IsKind v n.kind
  body : IsBody members n.body
  decodable : ∀ name v, (some name, v) ∈ members → name ≠ "id" → name ≠ "properties" →
    v.decodable depth

section Decode

variable {named : List (String × Value)}

theorem properties_iff {entries : List Entry} :
    Decode.properties named = some entries ↔
      ∃ given, Field (texts named) "properties" given ∧ IsProperties given entries := by
  simp only [← field?_iff]
  unfold Decode.properties
  constructor
  · intro h
    split at h
    · next hnull =>
      cases h
      exact ⟨_, hnull, .null⟩
    · next habsent =>
      cases h
      exact ⟨_, habsent, .absent⟩
    · next v _ hgiven => exact ⟨_, hgiven, .list ((list_iff entry_iff).mp h)⟩
    · cases h
  · rintro ⟨given, hgiven, hentries⟩
    cases hentries with
    | absent => simp [hgiven]
    | null => simp [hgiven]
    | list hlist =>
      have hread := (list_iff entry_iff).mpr hlist
      obtain ⟨items, rfl, _⟩ := hlist
      simp [hgiven, hread]

theorem field?_kindMembers {name : String} (hid : name ≠ "id") (hproperties : name ≠ "properties") :
    field? (Decode.kindMembers named) name = field? named name := by
  have hfilter : (Decode.kindMembers named).filter (·.1 == name) = named.filter (·.1 == name) := by
    rw [Decode.kindMembers, List.filter_filter]
    refine List.filter_congr fun member _ => ?_
    by_cases hname : member.1 = name
    · simp [hname, hid, hproperties]
    · simp [hname]
  rw [field?, field?, hfilter]

theorem required_kindMembers {name : String} (hid : name ≠ "id") (hproperties : name ≠ "properties")
    (read : Value → Option α) :
    Decode.required (Decode.kindMembers named) name read = Decode.required named name read := by
  rw [Decode.required, Decode.required, field?_kindMembers hid hproperties]

theorem body_kindMembers (k : Kind) :
    Decode.body (Decode.kindMembers named) k = Decode.body named k := by
  cases k <;> simp [Decode.body, Decode.linkField, required_kindMembers, field?_kindMembers]

theorem givesText_iff {name text : String} :
    Decode.required named name Value.text? = some text ↔ GivesText (texts named) name text := by
  simp only [required_iff, text_iff, GivesText]

theorem givesLink_iff {name : String} {link : Option NodeId} :
    Decode.linkField named name = some link ↔ GivesLink (texts named) name link := by
  simp only [Decode.linkField, Option.bind_eq_some_iff, field?_iff, link_iff, GivesLink]

theorem givesList_iff {name : String} {read : Value → Option α} {item : Value → α → Prop}
    (h : ∀ {v a}, read v = some a ↔ item v a) {l : List α} :
    Decode.required named name (Decode.list read) = some l ↔
      GivesList (texts named) name item l := by
  simp only [required_iff, list_iff h, GivesList]

theorem body_iff {n : Node} {k : Kind} :
    Decode.body named k = some n.body ↔ n.kind = k ∧ IsBody (texts named) n.body := by
  constructor
  · intro h
    obtain ⟨id, properties, b⟩ := n
    cases k <;> simp only [Decode.body, Option.bind_eq_bind, Option.bind_eq_some_iff,
      Option.pure_def, Option.some.injEq, givesText_iff, givesLink_iff, givesList_iff choice_iff,
      givesList_iff assignment_iff, givesList_iff guardedRoute_iff,
      givesList_iff chanceRoute_iff] at h
    case start =>
      obtain ⟨name, hname, link, hlink, rfl⟩ := h
      exact ⟨rfl, .start hname hlink⟩
    case dialog =>
      obtain ⟨speaker, hspeaker, line, hline, link, hlink, rfl⟩ := h
      exact ⟨rfl, .dialog hspeaker hline hlink⟩
    case choice =>
      obtain ⟨options, hoptions, rfl⟩ := h
      exact ⟨rfl, .choice hoptions⟩
    case function =>
      obtain ⟨statement, hstatement, link, hlink, rfl⟩ := h
      exact ⟨rfl, .function hstatement hlink⟩
    case ending =>
      obtain rfl := h
      exact ⟨rfl, .ending⟩
    case update =>
      obtain ⟨assignments, hassignments, link, hlink, rfl⟩ := h
      exact ⟨rfl, .update hassignments hlink⟩
    case conditional =>
      obtain ⟨routes, hroutes, fallback, hfallback, rfl⟩ := h
      exact ⟨rfl, .conditional hroutes hfallback⟩
    case probability =>
      obtain ⟨routes, hroutes, rfl⟩ := h
      exact ⟨rfl, .probability hroutes⟩
    case teleport =>
      obtain ⟨experience, hexperience, start, hstart, rfl⟩ := h
      exact ⟨rfl, .teleport hexperience hstart⟩
  · rintro ⟨rfl, h⟩
    obtain ⟨id, properties, b⟩ := n
    cases h with
    | start hname hlink =>
      simp [Decode.body, Node.kind, Scene.kind, givesText_iff.mpr hname, givesLink_iff.mpr hlink]
    | dialog hspeaker hline hlink =>
      simp [Decode.body, Node.kind, Scene.kind, givesText_iff.mpr hspeaker,
        givesText_iff.mpr hline, givesLink_iff.mpr hlink]
    | choice hoptions =>
      simp [Decode.body, Node.kind, Scene.kind, (givesList_iff choice_iff).mpr hoptions]
    | function hstatement hlink =>
      simp [Decode.body, Node.kind, Scene.kind, givesText_iff.mpr hstatement,
        givesLink_iff.mpr hlink]
    | ending => rfl
    | update hassignments hlink =>
      simp [Decode.body, Node.kind, Transit.kind, (givesList_iff assignment_iff).mpr hassignments,
        givesLink_iff.mpr hlink]
    | conditional hroutes hfallback =>
      simp [Decode.body, Node.kind, Transit.kind, (givesList_iff guardedRoute_iff).mpr hroutes,
        givesLink_iff.mpr hfallback]
    | probability hroutes =>
      simp [Decode.body, Node.kind, Transit.kind, (givesList_iff chanceRoute_iff).mpr hroutes]
    | teleport hexperience hstart =>
      simp [Decode.body, Node.kind, Transit.kind, givesText_iff.mpr hexperience,
        givesText_iff.mpr hstart]

theorem decodable_iff {depth : Nat} : (Decode.kindMembers named).all (·.2.decodable depth) ↔
    ∀ name v, (some name, v) ∈ texts named → name ≠ "id" → name ≠ "properties" →
      v.decodable depth := by
  simp only [Decode.kindMembers, List.all_eq_true, List.mem_filter, Bool.and_eq_true,
    bne_iff_ne, mem_texts, and_imp, Prod.forall]

theorem node_iff {depth : Nat} {members : List (Option String × Value)} {n : Node} :
    Decode.node depth (.object members) = some n ↔ IsNode depth members n := by
  simp only [Decode.node_object_iff, namedMembers_iff, body_kindMembers, body_iff,
    required_kindMembers (by decide : "type" ≠ "id") (by decide), required_iff, integer_iff,
    kind_iff, properties_iff, decodable_iff]
  constructor
  · rintro ⟨named, rfl, hid, hproperties, hdecodable, _, hkind, rfl, hbody⟩
    exact ⟨texts_keyed, hid, hproperties, hkind, hbody, hdecodable⟩
  · intro h
    obtain ⟨named, rfl⟩ := keyed_iff.mp h.keyed
    exact ⟨named, rfl, h.id, h.properties, h.decodable, n.kind, h.kind, rfl, h.body⟩

end Decode
end Schema

/-- An object is read as a node exactly if it has the shape of one: the id, the type and every field
of its kind that is not a link once, links and properties at most once and possibly null, each with
a value of its own shape, and anything else as long as it could be decoded. The node has exactly the
contents that are given. A text is read as a node exactly if it holds such an object. -/
theorem node_read_iff_schema :
    (∀ depth members n,
      Decode.node depth (.object members) = some n ↔ Schema.IsNode depth members n) ∧
    ∀ text n, Node.read text = some n ↔ ∃ members,
      Value.read text = some (.object members) ∧ Schema.IsNode (Decode.nesting - 1) members n := by
  refine ⟨fun depth members n => Schema.node_iff, fun text n => ?_⟩
  rw [Node.read, Option.bind_eq_some_iff]
  constructor
  · rintro ⟨v, hv, hnode⟩
    cases v with
    | object members => exact ⟨members, hv, Schema.node_iff.mp hnode⟩
    | _ => cases hnode
  · rintro ⟨members, hv, hnode⟩
    exact ⟨.object members, hv, Schema.node_iff.mpr hnode⟩

/-- A kind given by its position, and a link of another kind that is no link. -/
example : Node.read "\x7b\"linksTo\":[],\"type\":4,\"id\":-9,\"properties\":null\x7d" =
    some ⟨-9, [], .scene .ending⟩ := by
  decide +kernel

end Storyline

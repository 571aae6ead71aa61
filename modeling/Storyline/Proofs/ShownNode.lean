import Mathlib.Data.List.Forall2
import Storyline.Traversal

/-! # Nodes as they are shown

A node is shown with the texts that are meant to be read replaced, one by one, and everything else
as it is written. So whatever is told from its kind, its links or its names is told of the shown
node and of the written one alike.
-/
namespace Storyline

structure Choice.Shown (t : Variables) (c shown : Choice) : Prop where
  text : shown.text = t.substitute c.text
  link : shown.link = c.link

structure Entry.Shown (t : Variables) (e shown : Entry) : Prop where
  name : shown.name = e.name
  value : shown.value = t.substitute e.value

/-- Names of start nodes are not texts to be read. -/
inductive Scene.Shown (t : Variables) : Scene → Scene → Prop where
  | start (name link) : Shown t (.start name link) (.start name link)
  | dialog (speaker line link) : Shown t (.dialog speaker line link)
      (.dialog (t.substitute speaker) (t.substitute line) link)
  | choice {options shown} : List.Forall₂ (Choice.Shown t) options shown →
      Shown t (.choice options) (.choice shown)
  | function (statement link) : Shown t (.function statement link)
      (.function (t.substitute statement) link)
  | ending : Shown t .ending .ending

inductive Body.Shown (t : Variables) : Body → Body → Prop where
  | scene {s shown} : Scene.Shown t s shown → Shown t (.scene s) (.scene shown)
  | transit (work) : Shown t (.transit work) (.transit work)

structure Node.Shown (t : Variables) (node shown : Node) : Prop where
  id : shown.id = node.id
  properties : List.Forall₂ (Entry.Shown t) node.properties shown.properties
  body : Body.Shown t node.body shown.body

theorem forall₂_iff_eq_map {R : α → β → Prop} {f : α → β} (hR : ∀ a b, R a b ↔ b = f a)
    {l : List α} {m : List β} : List.Forall₂ R l m ↔ m = l.map f := by
  constructor
  · intro h
    induction h with
    | nil => rfl
    | cons hab _ ih => rw [List.map_cons, (hR _ _).mp hab, ih]
  · rintro rfl
    rw [List.forall₂_map_right_iff, List.forall₂_same]
    intro a _
    exact (hR a (f a)).mpr rfl

variable {t : Variables}

theorem Choice.shown_iff (c shown : Choice) :
    c.Shown t shown ↔ shown = { c with text := t.substitute c.text } := by
  constructor
  · rintro ⟨ht, hl⟩
    cases shown
    simp_all
  · rintro rfl
    exact ⟨rfl, rfl⟩

theorem Entry.shown_iff (e shown : Entry) :
    e.Shown t shown ↔ shown = { e with value := t.substitute e.value } := by
  constructor
  · rintro ⟨hn, hv⟩
    cases shown
    simp_all
  · rintro rfl
    exact ⟨rfl, rfl⟩

theorem Scene.shown_iff {s shown : Scene} : s.Shown t shown ↔ shown = s.fill t := by
  constructor
  · intro h
    cases h with
    | choice ho =>
      rw [(forall₂_iff_eq_map Choice.shown_iff).mp ho]
      rfl
    | _ => rfl
  · rintro rfl
    cases s with
    | start name link => exact .start name link
    | dialog speaker line link => exact .dialog speaker line link
    | choice options => exact .choice ((forall₂_iff_eq_map Choice.shown_iff).mpr rfl)
    | function statement link => exact .function statement link
    | ending => exact .ending

theorem Node.shown_iff {node shown : Node} : node.Shown t shown ↔ shown = node.fill t := by
  constructor
  · intro h
    obtain ⟨id, properties, body⟩ := node
    obtain ⟨id', properties', body'⟩ := shown
    obtain ⟨hid, hp, hb⟩ := h
    cases hid
    cases (forall₂_iff_eq_map Entry.shown_iff).mp hp
    cases hb with
    | scene hs => rw [Scene.shown_iff.mp hs]; rfl
    | transit work => rfl
  · rintro rfl
    refine ⟨rfl, (forall₂_iff_eq_map Entry.shown_iff).mpr rfl, ?_⟩
    unfold Node.fill
    cases node.body with
    | scene s => exact .scene (Scene.shown_iff.mpr rfl)
    | transit work => exact .transit work

namespace Node

@[simp] theorem fill_id (node : Node) (t : Variables) : (node.fill t).id = node.id := rfl

@[simp] theorem fill_isDisplayable (node : Node) (t : Variables) :
    (node.fill t).isDisplayable = node.isDisplayable := by
  cases hb : node.body <;> simp [fill, isDisplayable, hb]

@[simp] theorem fill_kind (node : Node) (t : Variables) : (node.fill t).kind = node.kind := by
  cases hb : node.body with
  | scene s => cases s <;> simp [fill, kind, Scene.fill, Scene.kind, hb]
  | transit work => simp [fill, kind, hb]

@[simp] theorem fill_links (node : Node) (t : Variables) : (node.fill t).links = node.links := by
  cases hb : node.body with
  | scene s =>
    cases s <;> simp [fill, links, Scene.fill, Scene.links, List.filterMap_map, hb]
  | transit work => simp [fill, links, hb]

end Node
end Storyline

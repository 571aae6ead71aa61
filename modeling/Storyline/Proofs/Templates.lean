import Storyline.Proofs.Landing

/-! # Substitution never compounds

What is shown of a node is made from the loaded node and from the values of the moment, whatever was
shown or written before: nothing that was filled in is ever kept. The same holds of the data table.
-/
namespace Storyline

inductive Command.Presents : Command → Prop where
  | start (name) : Presents (.start name)
  | enter (experience start) : Presents (.enter experience start)
  | advance (choice) : Presents (.advance choice)
  | current : Presents .current
  | node (id) : Presents (.node id)

namespace Traversal

/-- The node `n` is a loaded node of the open experience, shown with the values of the moment. -/
def Presents (t : Traversal) (n : Node) : Prop :=
  ∃ node ∈ t.experience.nodes, node.Shown t.play.store n

variable {t u : Traversal} {n : Node}

theorem Placed.node_iff (ht : t.Placed) {id : NodeId} :
    t.node? id = some n ↔
      ∃ node ∈ t.experience.nodes, node.id = id ∧ node.Shown t.play.store n := by
  have hdistinct := t.play.project.nodes_distinct t.experience ht.opened
  unfold node?
  rw [Option.map_eq_some_iff]
  constructor
  · rintro ⟨node, hn, rfl⟩
    obtain ⟨hm, hid⟩ := Experience.node_mem hn
    exact ⟨node, hm, hid, Node.shown_iff.mpr rfl⟩
  · rintro ⟨node, hm, hid, hs⟩
    exact ⟨node, (Experience.node_iff hdistinct).mpr ⟨hm, hid⟩, (Node.shown_iff.mp hs).symm⟩

theorem Placed.node_presents (ht : t.Placed) {id : NodeId} (h : t.node? id = some n) :
    t.Presents n := by
  obtain ⟨node, hm, _, hs⟩ := ht.node_iff.mp h
  exact ⟨node, hm, hs⟩

theorem Hands.presents (h : t.Hands n u) (ht : t.Placed) : u.Presents n := by
  obtain ⟨node, hr, rfl⟩ := h.rests ht
  exact ⟨node, (Experience.node_mem hr.found).1, Node.shown_iff.mpr rfl⟩

end Traversal

namespace Session

theorem ofExcept_node {r : Except Fault Node} {n : Node}
    (h : Reply.ofExcept (.node ∘ some) r = .node (some n)) : r = .ok n := by
  cases r with
  | ok m =>
    cases h
    rfl
  | error fault => cases h

theorem perform_presents {s : Session} (hs : s.Placed) {c : Command} (hc : c.Presents) {n : Node}
    (h : (s.perform c).1 = .node (some n)) :
    ∃ u, (s.perform c).2 = .opened u ∧ u.Placed ∧ u.Presents n := by
  cases s with
  | closed play => cases hc <;> cases h
  | opened t =>
    have ht : t.Placed := hs t rfl
    have hmove : ∀ {r : Except Fault Node × Traversal}, t.Hands n r.2 →
        ∃ u, Session.opened r.2 = .opened u ∧ u.Placed ∧ u.Presents n :=
      fun hands => ⟨_, rfl, hands.placed ht, hands.presents ht⟩
    cases hc with
    | start name => exact hmove (.start (Prod.ext (ofExcept_node h) rfl))
    | enter experience start => exact hmove (.enter (Prod.ext (ofExcept_node h) rfl))
    | advance choice => exact hmove (.advance (Prod.ext (ofExcept_node h) rfl))
    | current =>
      obtain ⟨id, _, hn⟩ := Option.bind_eq_some_iff.mp (Reply.node.inj h)
      exact ⟨t, rfl, ht, ht.node_presents hn⟩
    | node id => exact ⟨t, rfl, ht, ht.node_presents (Reply.node.inj h)⟩

end Session

theorem Playthrough.item_iff {p : Playthrough} {name text : String} :
    p.item name = .ok text ↔ ∃ before e after,
      p.project.document.dataTable = before ++ e :: after ∧ e.name = name ∧
        (∀ x ∈ before, x.name ≠ name) ∧ text = p.store.substitute e.value := by
  have hfound : ∀ e, p.project.document.dataTable.find? (·.name == name) = some e ↔
      e.name = name ∧ ∃ before after, p.project.document.dataTable = before ++ e :: after ∧
        ∀ x ∈ before, x.name ≠ name := by
    intro e
    simp [List.find?_eq_some_iff_append]
  constructor
  · intro h
    unfold item at h
    split at h
    · next e he =>
      obtain ⟨hname, before, after, htable, hbefore⟩ := (hfound e).mp he
      cases h
      exact ⟨before, e, after, htable, hname, hbefore, rfl⟩
    · cases h
  · rintro ⟨before, e, after, htable, hname, hbefore, rfl⟩
    have he := (hfound e).mpr ⟨hname, before, after, htable, hbefore⟩
    simp only [item, he]

/-- In whatever way a session has come about, a node that it shows is a node as loaded from the
document, with exactly its texts replaced by the values of the moment and with the same links and
kind; and a node is shown for every id of the open experience. An item of the data table is the
loaded text of its first entry, replaced in the same way. -/
theorem substitution_never_compounds (document : Document) (limit : UInt64) (p : Project)
    (hload : Project.load document limit = .ok p) (s : Session) (hs : Reachable p s) :
    (∀ t, s = .opened t → t.experience ∈ document.experiences ∧
      ∀ id n, t.node? id = some n ↔
        ∃ node ∈ t.experience.nodes, node.id = id ∧ node.Shown t.play.store n) ∧
    (∀ c n, c.Presents → (s.perform c).1 = .node (some n) →
      ∃ u, (s.perform c).2 = .opened u ∧ u.experience ∈ document.experiences ∧
        ∃ node ∈ u.experience.nodes, node.Shown u.play.store n ∧ n.links = node.links ∧
          n.isDisplayable = node.isDisplayable ∧ n.kind = node.kind) ∧
    ∀ name text, s.play.item name = .ok text ↔ ∃ before e after,
      document.dataTable = before ++ e :: after ∧ e.name = name ∧
        (∀ x ∈ before, x.name ≠ name) ∧ text = s.play.store.substitute e.value := by
  obtain ⟨rfl, _⟩ := Project.load_ok_iff.mp hload
  have hproject : s.play.project = p := hs.project
  refine ⟨?_, ?_, ?_⟩
  · rintro t rfl
    have ht : t.Placed := hs.placed t rfl
    have hopen : t.experience ∈ p.experiences := hproject ▸ ht.opened
    exact ⟨hopen, fun id n => ht.node_iff⟩
  · intro c n hc h
    obtain ⟨u, hu, hplaced, node, hm, hshown⟩ := Session.perform_presents hs.placed hc h
    have hsame : u.play.project = p := by
      have hcall := (s.perform_called c).project
      rw [hu] at hcall
      exact hcall.trans hproject
    have hopen : u.experience ∈ p.experiences := hsame ▸ hplaced.opened
    refine ⟨u, hu, hopen, node, hm, hshown, ?_⟩
    rw [Node.shown_iff.mp hshown]
    simp
  · intro name text
    rw [← hproject]
    exact Playthrough.item_iff

/-- The gold is written over with a text that contains its own name. -/
def visit : Session :=
  ((Session.closed (.new shop (.cycle #[0]))).run
    [.openExperience "Counter", .start "Bell", .advance none, .current,
      .set "gold" "gold bars"]).2

theorem visit_never_compounds :
    Project.load shop.document 1 = .ok shop ∧ Reachable shop visit ∧ Command.current.Presents ∧
    (visit.perform .current).1 =
      .node (some ⟨2, [⟨"sign", "gold bars only"⟩], .scene (.choice [⟨"Pay gold bars", none⟩])⟩) ∧
    (∃ u, (visit.perform .current).2 = .opened u ∧ ∃ node ∈ u.experience.nodes,
      node.Shown u.play.store
        ⟨2, [⟨"sign", "gold bars only"⟩], .scene (.choice [⟨"Pay gold bars", none⟩])⟩) ∧
    ∃ before e after, shop.document.dataTable = before ++ e :: after ∧ e.name = "price" ∧
      (∀ x ∈ before, x.name ≠ "price") ∧
      "gold bars coins" = visit.play.store.substitute e.value := by
  have hload : Project.load shop.document 1 = .ok shop := Project.load_ok_iff.mpr ⟨rfl, rfl⟩
  have hl : shop.stepLimit.toNat < 2 ^ 64 - 1 := by decide
  have hr : Reachable shop visit := Reachable.run (fun h => h.returns hl) (.fresh (.cycle #[0])) _
  have hn : visit.traversal?.bind (·.currentNode?) =
      some ⟨2, [⟨"sign", "gold bars only"⟩], .scene (.choice [⟨"Pay gold bars", none⟩])⟩ := by
    decide +kernel
  have hreply : (visit.perform .current).1 = .node (visit.traversal?.bind (·.currentNode?)) := rfl
  rw [hn] at hreply
  have hitem : visit.play.item "price" = .ok "gold bars coins" := by decide +kernel
  have h := substitution_never_compounds shop.document 1 shop hload visit hr
  obtain ⟨u, hu, _, node, hm, hshown, _⟩ := h.2.1 .current _ .current hreply
  exact ⟨hload, hr, .current, hreply, ⟨u, hu, node, hm, hshown⟩, (h.2.2 "price" _).mp hitem⟩

end Storyline

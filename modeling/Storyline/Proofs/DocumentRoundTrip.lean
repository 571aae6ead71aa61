import Storyline.Document.Decode
import Storyline.Document.Encode
import Storyline.Proofs.JsonRoundTrip

/-! # Documents are read back

Decoding undoes encoding, record by record. What encodings are made of is said once, in `Plain`,
with a bound on their nesting: so the fields of a node are decodable at the depth where they stand,
and every number in a document is a canonical literal.
-/
namespace Storyline

open Json (Value Literal field? namedMembers)

namespace Json

theorem Literal.integer?_ofInt (n : Int) : (ofInt n).integer? = some n := by
  have hzero : (decide (n < 0) && n.natAbs == 0) = false := by
    simp only [Bool.and_eq_false_iff, decide_eq_false_iff_not, beq_eq_false_iff_ne]
    omega
  simp only [integer?, ofInt, ofDigits_toDigits, List.isEmpty_nil, Bool.not_true, Bool.or_false,
    Option.isSome_none, hzero, Bool.false_eq_true, if_false, decide_eq_true_eq, signed_natAbs]

theorem Literal.significand_fits (digits : List Char) (start : Nat)
    (h : Nat.ofDigitChars 10 digits start < UInt64.size) :
    significand start digits = (Nat.ofDigitChars 10 digits start, digits.length) := by
  induction digits generalizing start with
  | nil => rfl
  | cons d rest ih =>
    rw [Nat.ofDigitChars_cons] at h ⊢
    have hle : 10 * start + (d.toNat - '0'.toNat) ≤
        Nat.ofDigitChars 10 rest (10 * start + (d.toNat - '0'.toNat)) := by
      rw [Nat.ofDigitChars_eq_ofDigitChars_zero]
      exact Nat.le_add_right_of_le (Nat.le_mul_of_pos_left _ (Nat.pow_pos (by decide)))
    have hlt : 10 * start + (d.toNat - '0'.toNat) < UInt64.size := by omega
    simp only [significand, hlt, if_true, ih _ h, List.length_cons]

theorem Literal.inRange_ofInt {n : Int} (h : n.natAbs < UInt64.size) : (ofInt n).inRange := by
  have hv : Nat.ofDigitChars 10 (Nat.toDigits 10 n.natAbs) 0 = n.natAbs := ofDigits_toDigits _
  have hs := significand_fits (Nat.toDigits 10 n.natAbs) 0 (by rwa [hv])
  simp [inRange, ofInt, hs, significand]

theorem namedMembers_record (fields : List (String × Value)) :
    namedMembers (fields.map fun (name, v) => (some name, v)) = some fields := by
  induction fields with
  | nil => rfl
  | cons f rest ih => simp [namedMembers, ih]

theorem Value.itemsDecodable_iff {items : List Value} {depth : Nat} :
    itemsDecodable items depth ↔ ∀ v ∈ items, v.decodable depth := by
  induction items with
  | nil => simp [itemsDecodable]
  | cons item rest ih => simp [itemsDecodable, ih]

theorem Value.membersDecodable_record {fields : List (String × Value)} {depth : Nat} :
    membersDecodable (fields.map fun (name, v) => (some name, v)) depth ↔
      ∀ f ∈ fields, f.2.decodable depth := by
  induction fields with
  | nil => simp [membersDecodable]
  | cons f rest ih => simp [membersDecodable, ih]

end Json

/-- Texts, 64-bit integers and nulls, in lists and records nested at most `depth` deep. -/
inductive Plain : Nat → Value → Prop where
  | text (depth s) : Plain depth (Encode.text s)
  | int (depth n) : Plain depth (Encode.int n)
  | null (depth) : Plain depth .null
  | array {depth items} : (∀ v ∈ items, Plain depth v) → Plain (depth + 1) (.array items)
  | record {depth fields} : (∀ f ∈ fields, Plain depth f.2) →
      Plain (depth + 1) (Encode.record fields)

namespace Plain

theorem decodable {depth : Nat} {v : Value} (h : Plain depth v) : v.decodable depth := by
  induction h with
  | text => rfl
  | int depth n =>
    have hlo := n.le_toInt
    have hhi := n.toInt_lt
    have hlt : n.toInt.natAbs < UInt64.size := by
      change n.toInt.natAbs < 2 ^ 64
      omega
    simpa [Encode.int, Value.decodable] using Literal.inRange_ofInt hlt
  | null => rfl
  | array _ ih => exact Value.itemsDecodable_iff.mpr ih
  | record _ ih => exact Value.membersDecodable_record.mpr ih

theorem canonical {depth : Nat} {v : Value} (h : Plain depth v) : v.Canonical := by
  induction h with
  | text => simp [Value.Canonical, Encode.text, Value.toTokens]
  | int depth n =>
    intro l hl
    simp only [Encode.int, Value.toTokens, List.mem_singleton, Json.Token.number.injEq] at hl
    subst hl
    exact Literal.ofInt_canonical _
  | null => simp [Value.Canonical, Value.toTokens]
  | array _ ih =>
    intro l hl
    simp only [Value.toTokens, List.mem_cons, List.mem_append, Value.number_mem_items] at hl
    simp only [reduceCtorEq, List.not_mem_nil, or_false, false_or] at hl
    obtain ⟨v, hv, hl⟩ := hl
    exact ih v hv l hl
  | record _ ih =>
    intro l hl
    simp only [Encode.record, Value.toTokens, List.mem_cons, List.mem_append,
      Value.number_mem_members] at hl
    simp only [reduceCtorEq, List.not_mem_nil, or_false, false_or] at hl
    obtain ⟨m, hm, hl⟩ := hl
    obtain ⟨f, hf, rfl⟩ := List.mem_map.mp hm
    exact ih f hf l hl

theorem link (depth : Nat) (target : Option NodeId) : Plain depth (Encode.link target) := by
  cases target with
  | none => exact .null depth
  | some id => exact .int depth id

theorem list {depth : Nat} {item : α → Value} (h : ∀ a, Plain depth (item a)) (items : List α) :
    Plain (depth + 1) (Encode.list item items) := by
  refine .array fun v hv => ?_
  obtain ⟨a, _, rfl⟩ := List.mem_map.mp hv
  exact h a

theorem entry (depth : Nat) (e : Entry) : Plain (depth + 1) (Encode.entry e) :=
  .record (by simp [text])

theorem assignment (depth : Nat) (a : Assignment) : Plain (depth + 1) (Encode.assignment a) :=
  .record (by simp [text])

theorem comparison (depth : Nat) (c : Comparison) : Plain (depth + 1) (Encode.comparison c) :=
  .record (by simp [text])

theorem choice (depth : Nat) (c : Choice) : Plain (depth + 1) (Encode.choice c) :=
  .record (by simp [text, link])

theorem guardedRoute (depth : Nat) (r : GuardedRoute) :
    Plain (depth + 3) (Encode.guardedRoute r) :=
  .record (by simp [text, int, list (comparison depth)])

theorem chanceRoute (depth : Nat) (r : ChanceRoute) : Plain (depth + 1) (Encode.chanceRoute r) :=
  .record (by simp [text, int])

theorem body (depth : Nat) (b : Body) : ∀ f ∈ Encode.body b, Plain (depth + 4) f.2 := by
  cases b with
  | scene s => cases s <;> simp [Encode.body, text, link, list (choice (depth + 2))]
  | transit t =>
    cases t <;> simp [Encode.body, text, link, list (assignment (depth + 2)),
      list (guardedRoute depth), list (chanceRoute (depth + 2))]

theorem node (depth : Nat) (n : Node) : Plain (depth + 5) (Encode.node n) :=
  .record (by simpa [text, int, list (entry (depth + 2))] using body depth n.body)

theorem experience (depth : Nat) (e : Experience) : Plain (depth + 7) (Encode.experience e) :=
  .record (by simp [text, list (node depth)])

theorem document (depth : Nat) (d : Document) : Plain (depth + 9) (Encode.document d) :=
  .record (by simp [list (experience depth), list (entry (depth + 6))])

end Plain

namespace Decode

theorem record?_record (fields : List (String × Value)) (names : List String) :
    (Encode.record fields).record? names = names.mapM (field? fields) := by
  simp [Encode.record, Value.record?, Json.namedMembers_record]

theorem text?_text (s : String) : (Encode.text s).text? = some s := rfl

theorem int64?_int (n : Int64) : (Encode.int n).int64? = some n := by
  have hlo := n.minValue_le_toInt
  have hhi := n.toInt_le
  simp only [Encode.int, Value.int64?, Literal.integer?_ofInt, Option.bind_some, hlo, hhi,
    and_self, if_true, Int64.ofInt_toInt]

theorem link_link (target : Option NodeId) : link (some (Encode.link target)) = some target := by
  cases target with
  | none => rfl
  | some id => simpa [Encode.link, link, Encode.int] using int64?_int id

theorem list_list {item : α → Value} {read : Value → Option α} (h : ∀ a, read (item a) = some a)
    (items : List α) : list read (Encode.list item items) = some items := by
  simp only [list, Encode.list, Value.items?, Option.bind_some]
  induction items with
  | nil => rfl
  | cons a rest ih => simp [h, ih]

theorem mode_name (holdsNothing : Value → Bool) (m : RouteMode) :
    mode holdsNothing (Encode.text m.name) = some m := by
  cases m <;> rfl

theorem kind_name (k : Kind) : kind (Encode.text k.name) = some k := k.ofName?_name

theorem entry_entry (e : Entry) : entry (Encode.entry e) = some e := by
  simp [entry, Encode.entry, record?_record, field?, text?_text]

theorem assignment_assignment (a : Assignment) : assignment (Encode.assignment a) = some a := by
  simp [assignment, Encode.assignment, record?_record, field?, text?_text]

theorem comparison_comparison (c : Comparison) : comparison (Encode.comparison c) = some c := by
  simp [comparison, Encode.comparison, record?_record, field?, text?_text]

theorem choice_choice (c : Choice) : choice (Encode.choice c) = some c := by
  simp [choice, Encode.choice, record?_record, field?, text?_text, link_link]

theorem guardedRoute_guardedRoute (r : GuardedRoute) :
    guardedRoute (Encode.guardedRoute r) = some r := by
  simp [guardedRoute, Encode.guardedRoute, record?_record, field?,
    list_list comparison_comparison, mode_name, int64?_int]

theorem chanceRoute_chanceRoute (r : ChanceRoute) :
    chanceRoute (Encode.chanceRoute r) = some r := by
  simp [chanceRoute, Encode.chanceRoute, record?_record, field?, text?_text, int64?_int]

theorem body_body (n : Node) (tag : Value) :
    body (("type", tag) :: Encode.body n.body) n.kind = some n.body := by
  obtain ⟨id, properties, b⟩ := n
  cases b with
  | scene s =>
    cases s <;> simp [body, Encode.body, Node.kind, Scene.kind, required, linkField, field?,
      text?_text, link_link, list_list choice_choice]
  | transit t =>
    cases t <;> simp [body, Encode.body, Node.kind, Transit.kind, required, linkField, field?,
      text?_text, link_link, list_list assignment_assignment,
      list_list guardedRoute_guardedRoute, list_list chanceRoute_chanceRoute]

def kindMembers (named : List (String × Value)) : List (String × Value) :=
  named.filter fun member => member.1 != "id" && member.1 != "properties"

theorem node_object_iff {depth : Nat} {members : List (Option String × Value)} {n : Node} :
    node depth (.object members) = some n ↔ ∃ named,
      namedMembers members = some named ∧
      required named "id" Value.int64? = some n.id ∧
      properties named = some n.properties ∧
      (kindMembers named).all (·.2.decodable depth) ∧
      ∃ k, required (kindMembers named) "type" kind = some k ∧
        body (kindMembers named) k = some n.body := by
  obtain ⟨i, entries, b⟩ := n
  constructor
  · intro h
    obtain ⟨named, hnamed, h⟩ := Option.bind_eq_some_iff.mp h
    obtain ⟨_, hid, h⟩ := Option.bind_eq_some_iff.mp h
    obtain ⟨_, hproperties, h⟩ := Option.bind_eq_some_iff.mp h
    dsimp only at h
    split at h
    · next hdecodable =>
      obtain ⟨k, hkind, h⟩ := Option.bind_eq_some_iff.mp h
      obtain ⟨_, hbody, h⟩ := Option.bind_eq_some_iff.mp h
      cases h
      exact ⟨named, hnamed, hid, hproperties, hdecodable, k, hkind, hbody⟩
    · cases h
  · rintro ⟨named, hnamed, hid, hproperties, hdecodable, k, hkind, hbody⟩
    simp only [kindMembers] at hdecodable hkind hbody
    simp only [node, hnamed, hid, hproperties, hdecodable, hkind, hbody, Option.bind_eq_bind,
      Option.bind_some, if_true, Option.pure_def]

theorem body_fields (b : Body) :
    ∀ f ∈ Encode.body b, f.1 ≠ "id" ∧ f.1 ≠ "properties" ∧ f.1 ≠ "type" := by
  cases b with
  | scene s => cases s <;> simp [Encode.body]
  | transit t => cases t <;> simp [Encode.body]

theorem filter_body {name : String} (h : name = "id" ∨ name = "properties" ∨ name = "type")
    (b : Body) : (Encode.body b).filter (·.1 == name) = [] := by
  refine List.filter_eq_nil_iff.mpr fun f hf => ?_
  have hne := body_fields b f hf
  rcases h with rfl | rfl | rfl
  · simpa using hne.1
  · simpa using hne.2.1
  · simpa using hne.2.2

theorem kindMembers_body (b : Body) : kindMembers (Encode.body b) = Encode.body b :=
  List.filter_eq_self.mpr fun f hf => by simp [body_fields b f hf]

theorem node_node (depth : Nat) (n : Node) : node (depth + 4) (Encode.node n) = some n := by
  have hid := filter_body (Or.inl rfl) n.body
  have hproperties := filter_body (Or.inr (Or.inl rfl)) n.body
  have htype := filter_body (Or.inr (Or.inr rfl)) n.body
  have hkind : kindMembers (("id", Encode.int n.id) ::
      ("properties", Encode.list Encode.entry n.properties) ::
      ("type", Encode.text n.kind.name) :: Encode.body n.body) =
      ("type", Encode.text n.kind.name) :: Encode.body n.body := by
    simpa [kindMembers] using kindMembers_body n.body
  refine node_object_iff.mpr ⟨_, Json.namedMembers_record _, ?_, ?_, ?_, n.kind, ?_, ?_⟩
  · simp [required, field?, hid, int64?_int]
  · have hentries := list_list entry_entry n.properties
    simpa [properties, field?, hproperties, Encode.list] using hentries
  · rw [hkind, List.all_cons, Bool.and_eq_true]
    exact ⟨rfl, List.all_eq_true.mpr fun f hf => (Plain.body depth n.body f hf).decodable⟩
  · simp [hkind, required, field?, htype, kind_name]
  · rw [hkind]
    exact body_body n _

theorem experience_experience (e : Experience) : experience (Encode.experience e) = some e := by
  simp [experience, Encode.experience, record?_record, field?, text?_text, nesting,
    list_list (node_node 118)]

theorem document_document (d : Document) : document (Encode.document d) = some d := by
  simp [document, Encode.document, record?_record, field?, list_list experience_experience,
    list_list entry_entry]

end Decode

theorem Document.read_write (d : Document) : Document.read d.write = some d := by
  rw [Document.read, Document.write, Value.read_write (Plain.document 0 d).canonical]
  exact Decode.document_document d

theorem Node.read_write (n : Node) : Node.read n.write = some n := by
  rw [Node.read, Node.write, Value.read_write (Plain.node 0 n).canonical]
  exact Decode.node_node 122 n

/-- The text of every document reads as that document, and the text of every node as that node,
whatever characters stand in its texts and whatever its ids and links are. -/
theorem written_reads_back :
    (∀ d : Document, Document.read d.write = some d) ∧ ∀ n : Node, Node.read n.write = some n :=
  ⟨Document.read_write, Node.read_write⟩

example : Node.write ⟨-4, [⟨"mood", "\x01\"é"⟩], .scene (.start "A" none)⟩ =
    "\x7b\"id\":-4,\"properties\":[\x7b\"name\":\"mood\",\"value\":\"\\u0001\\\"é\"\x7d]," ++
      "\"type\":\"start\",\"name\":\"A\",\"linksTo\":null\x7d" := by
  decide +kernel

end Storyline

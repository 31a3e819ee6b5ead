import Diagram.Event.Json
import Diagram.Proofs.Json.Records
import Diagram.Proofs.Json.Standard

namespace Diagram

namespace Json

mutual

def depth : Json → Nat
  | .array items _ => itemsDepth items + 1
  | .object members _ => membersDepth members + 1
  | _ => 0

def itemsDepth : List Json → Nat
  | [] => 0
  | j :: rest => max (depth j) (itemsDepth rest)

def membersDepth : List (String × Json) → Nat
  | [] => 0
  | (_, j) :: rest => max (depth j) (membersDepth rest)

end

mutual

theorem takeFault_eq_none (n : Nat) :
    ∀ j : Json, j.takeFault n = none ↔ j.Whole ∧ j.depth ≤ n
  | .null | .bool _ | .number _ | .string _ => by simp [takeFault, depth]
  | .broken o => by simp [takeFault, Sound]
  | .array items cut => by
    cases n with
    | zero => simp [takeFault, depth]
    | succ n =>
      simp only [takeFault, Sound, depth, Nat.add_one_ne_zero, if_false, Nat.add_sub_cancel,
        takeItems_eq_none n items cut, Nat.add_le_add_iff_right, and_assoc]
  | .object members cut => by
    cases n with
    | zero => simp [takeFault, depth]
    | succ n =>
      simp only [takeFault, Sound, depth, Nat.add_one_ne_zero, if_false, Nat.add_sub_cancel,
        takeMembers_eq_none n members cut, Nat.add_le_add_iff_right, and_assoc]

theorem takeItems_eq_none (n : Nat) : ∀ (items : List Json) (cut : Option Obstacle),
    takeItems n items cut = none ↔ cut = none ∧ SoundItems (fun _ ↦ True) items ∧ itemsDepth items ≤ n
  | [], cut => by simp [takeItems, SoundItems, itemsDepth]
  | j :: rest, cut => by
    simp only [takeItems, SoundItems, itemsDepth, Option.or_eq_none_iff, takeFault_eq_none n j,
      takeItems_eq_none n rest cut, Nat.max_le]
    tauto

theorem takeMembers_eq_none (n : Nat) : ∀ (members : List (String × Json)) (cut : Option Obstacle),
    takeMembers n members cut = none ↔
      cut = none ∧ SoundMembers (fun _ ↦ True) members ∧ membersDepth members ≤ n
  | [], cut => by simp [takeMembers, SoundMembers, membersDepth]
  | (_, j) :: rest, cut => by
    simp only [takeMembers, SoundMembers, membersDepth, Option.or_eq_none_iff, takeFault_eq_none n j,
      takeMembers_eq_none n rest cut, Nat.max_le]
    tauto

end

end Json

namespace Event

def tag : Event → String
  | .nodeAdded .. => "node_added"
  | .edgeAdded .. => "edge_added"
  | .selectionChanged .. => "selection_changed"
  | .enabledChanged .. => "enabled_changed"
  | .statusChanged .. => "status_changed"

/-- The presentations of the fields of an event beside its tag. Only an id that is none can be left
out. -/
def contentForms : Event → List FieldForm
  | .nodeAdded id status => [
    ⟨["id"], (· = .string id), False⟩,
    ⟨["status"], (· = .string status), False⟩]
  | .edgeAdded source target => [
    ⟨["from"], (· = .string source), False⟩,
    ⟨["to"], (· = .string target), False⟩]
  | .selectionChanged before after => [
    ⟨["old_id"], (· = before.elim .null .string), before = none⟩,
    ⟨["new_id"], (· = after.elim .null .string), after = none⟩]
  | .enabledChanged ids enabled => [
    ⟨["ids"], (· = .list (ids.map .string)), False⟩,
    ⟨["enabled"], (· = .bool enabled), False⟩]
  | .statusChanged ids status => [
    ⟨["ids"], (· = .list (ids.map .string)), False⟩,
    ⟨["status"], (· = .string status), False⟩]

def forms (e : Event) : List FieldForm := ⟨["type"], (· = .string e.tag), False⟩ :: e.contentForms

def members : Event → List (String × Json)
  | .nodeAdded id status =>
    [("type", .string "node_added"), ("id", .string id), ("status", .string status)]
  | .edgeAdded source target =>
    [("type", .string "edge_added"), ("from", .string source), ("to", .string target)]
  | .selectionChanged before after =>
    [("type", .string "selection_changed"), ("old_id", before.elim .null .string),
      ("new_id", after.elim .null .string)]
  | .enabledChanged ids enabled =>
    [("type", .string "enabled_changed"), ("ids", .list (ids.map .string)), ("enabled", .bool enabled)]
  | .statusChanged ids status =>
    [("type", .string "status_changed"), ("ids", .list (ids.map .string)), ("status", .string status)]

theorem type_notMem (e : Event) : ∀ f ∈ e.contentForms, "type" ∉ f.names := by
  cases e <;> simp [contentForms]

theorem apart_forms (e : Event) : e.forms.Pairwise fun f g ↦ f.names.Disjoint g.names := by
  cases e <;> simp [forms, contentForms, List.Disjoint]

theorem itemsDepth_strings (ids : List String) : Json.itemsDepth (ids.map .string) = 0 := by
  induction ids with
  | nil => rfl
  | cons _ _ ih => simp [Json.itemsDepth, Json.depth, ih]

theorem takeFault_forms {e : Event} {f : FieldForm} (hf : f ∈ e.forms) {j : Json} (hj : f.Writes j)
    {depth : Nat} (hd : 0 < depth) : j.takeFault depth = none := by
  have hstring : ∀ s, (Json.string s).takeFault depth = none := fun _ ↦ by simp [Json.takeFault]
  have hoption : ∀ id : Option String, (id.elim Json.null .string).takeFault depth = none := fun id ↦ by
    cases id <;> simp [Json.takeFault]
  have hbool : ∀ b, (Json.bool b).takeFault depth = none := fun _ ↦ by simp [Json.takeFault]
  have hids : ∀ ids : List String, (Json.list (ids.map .string)).takeFault depth = none := by
    intro ids
    rw [Json.takeFault_eq_none]
    refine ⟨by simp, ?_⟩
    simp only [Json.list, Json.depth, itemsDepth_strings]
    exact hd
  cases e <;> simp only [forms, contentForms, List.mem_cons, List.not_mem_nil, or_false] at hf <;>
    rcases hf with rfl | rfl | rfl <;> cases hj <;> simp only [hstring, hoption, hbool, hids]

section Conforming

variable {layer : JsonLayer} (hl : layer.Conforms)

include hl

theorem suits (e : Event) : List.Forall₂
    (Suits ((shape layer).split e).1.shape ((shape layer).split e).2) e.contentForms
    ((shape layer).split e).1.shape.fields := by
  cases e <;> refine .cons ⟨rfl, ?_, ?_⟩ (.cons ⟨rfl, ?_, ?_⟩ .nil) <;>
    first
      | exact False.elim
      | exact fun h ↦ ⟨rfl, h⟩
      | rintro j rfl -
  all_goals first
    | exact hl.read_string _
    | exact hl.read_optional _
    | exact hl.read_strings _
    | exact hl.read_bool _

theorem write_eq (e : Event) : (codec layer).write e = .record e.members := by
  rw [codec, hl.write_tagged]
  cases e <;> simp [shape, nodeVariant, edgeVariant, selectionVariant, enabledVariant, statusVariant,
    RecordShape.pair, RecordShape.members, members, hl.write_string, hl.write_option, hl.write_list,
    hl.write_bool]

theorem ofText_takes {e : Event} {given others members : List (String × Json)} {s : String}
    (hg : Gives e.forms given) (ho : ∀ m ∈ others, ∀ f ∈ e.forms, m.1 ∉ f.names)
    (hm : members.Perm (given ++ others)) (hs : Json.Writes layer.accepts (.record members) s)
    (hw : ∀ m ∈ others, m.2.Whole ∧ m.2.depth ≤ layer.maxDepth - 1) : ofText layer s = .ok e := by
  have hgathers : Gathers (⟨["type"], (· = .string ((shape layer).split e).1.tag), False⟩ ::
      e.contentForms) members := by
    have hforms := (hg.gathers e.apart_forms).perm ho hm
    cases e <;> exact hforms
  rw [ofText, hl.decode_eq _ hs]
  refine hl.read_gathers (suits hl e) hgathers e.type_notMem (Json.skipFault_record.mp hs.skipFault)
    fun m hmem _ ↦ ?_
  rcases List.mem_append.mp (hm.mem_iff.mp hmem) with hmem | hmem
  · obtain ⟨f, hf, -, hj⟩ := hg.exists_form hmem
    exact takeFault_forms hf hj (Nat.sub_pos_of_lt hl.one_lt_maxDepth)
  · exact (Json.takeFault_eq_none _ m.2).mpr (hw m hmem)

theorem ofText_refuses {members : List (String × Json)} {s : String}
    (hs : Json.Writes layer.accepts (.record members) s) {m : String × Json} (hm : m ∈ members)
    (hne : m.1 ≠ "type") (hw : ¬ (m.2.Whole ∧ m.2.depth ≤ layer.maxDepth - 1)) :
    ∃ err, ofText layer s = .error err := by
  rw [ofText, hl.decode_eq _ hs]
  cases hok : (codec layer).read (.record members) with
  | error err => exact ⟨err, rfl⟩
  | ok e =>
    obtain ⟨-, v, -, -, htaken, -⟩ := (hl.read_tagged (shape layer)).mp hok
    exact absurd ((Json.takeFault_eq_none _ _).mp (htaken m hm hne)) hw

end Conforming

theorem gives_members (e : Event) : Gives e.forms e.members := by
  cases e <;> exact .given (by simp) rfl (.given (by simp) rfl (.given (by simp) rfl .nil))

theorem usable_members (e : Event) (accepts : Numeral → Bool) :
    (Json.record e.members).Usable accepts := by
  have hoption : ∀ id : Option String, (id.elim Json.null .string).Usable accepts := fun id ↦ by
    cases id <;> simp
  cases e <;> simp [members, hoption]

/-- With a library of JSON that does as it is documented to, an event is read back from its text, and
from any text that gives its fields in any order among others that can be taken in. With one that
cannot, because it is faulty or too deep, the text is refused. -/
theorem ofText_gives {layer : JsonLayer} (hl : layer.Conforms) (e : Event) :
    ofText layer (text layer e) = .ok e ∧
    (codec layer).write e = .record e.members ∧ Gives e.forms e.members ∧
    ∀ given others members s, Gives e.forms given →
      (∀ m ∈ others, ∀ f ∈ e.forms, m.1 ∉ f.names) → members.Perm (given ++ others) →
      Json.Writes layer.accepts (.record members) s →
      ((∀ m ∈ others, m.2.Whole ∧ m.2.depth ≤ layer.maxDepth - 1) → ofText layer s = .ok e) ∧
      ((∃ m ∈ others, ¬ (m.2.Whole ∧ m.2.depth ≤ layer.maxDepth - 1)) →
        ∃ err, ofText layer s = .error err) := by
  have hwritten := write_eq hl e
  have htext : Json.Writes layer.accepts (.record e.members) (text layer e) := by
    rw [text, hwritten]
    exact hl.writes_text (e.usable_members layer.accepts)
  refine ⟨ofText_takes hl e.gives_members (List.forall_mem_nil _) (by simp) htext
    (List.forall_mem_nil _), hwritten, e.gives_members, fun given others members s hg ho hm hs ↦
      ⟨ofText_takes hl hg ho hm hs, ?_⟩⟩
  rintro ⟨m, hmem, hw⟩
  have hne : m.1 ∉ ["type"] := ho m hmem _ List.mem_cons_self
  exact ofText_refuses hl hs (hm.mem_iff.mpr (by simp [hmem])) (by simpa using hne) hw

theorem ofText_gives_reversed :
    JsonLayer.standard.Conforms ∧
    ofText .standard (text .standard (.selectionChanged none (some "a\n\""))) =
      .ok (.selectionChanged none (some "a\n\"")) ∧
    ofText .standard (Json.record [("x", .list [.null]), ("new_id", .string "a\n\""),
      ("type", .string "selection_changed")]).text = .ok (.selectionChanged none (some "a\n\"")) := by
  have hl := JsonLayer.standard_conforms
  obtain ⟨hwritten, -, -, hothers⟩ := ofText_gives hl (.selectionChanged none (some "a\n\""))
  have hgives : Gives (forms (.selectionChanged none (some "a\n\"")))
      [("type", .string "selection_changed"), ("new_id", .string "a\n\"")] :=
    .given (by simp) rfl (.omitted rfl (.given (by simp) rfl .nil))
  exact ⟨hl, hwritten, (hothers _ [("x", .list [.null])] _ _ hgives (by simp [forms, contentForms])
    (List.reverse_perm _) (Json.writes_text (by simp))).1 (by simp [Json.list, Json.Whole, Json.Sound,
      Json.SoundItems, Json.depth, Json.itemsDepth, JsonLayer.standard, JsonLayer.standardDepth])⟩

/-- An array that is too deep, a number beyond the doubles and half of a surrogate pair, each under a
key that is not one of the event. -/
theorem ofText_refuses_others :
    (∃ err, ofText .standard (Json.record [("type", .string "node_added"), ("id", .string "a"),
      ("status", .string "s"), ("x", Nat.repeat (fun j ↦ .list [j]) 127 .null)]).text =
        .error err) ∧
    (ofText .standard "\x7b\"type\":\"node_added\",\"id\":\"a\",\"status\":\"s\",\"x\":1e400\x7d").isOk =
      false ∧
    (ofText .standard
      "\x7b\"type\":\"node_added\",\"id\":\"a\",\"status\":\"s\",\"x\":\"\\ud800\"\x7d").isOk =
      false := by
  have hdeep : ∀ n, (Nat.repeat (fun j ↦ Json.list [j]) n .null).Usable
      JsonLayer.standard.accepts := by
    intro n
    induction n with
    | zero => trivial
    | succ n ih => simpa [Nat.repeat] using ih
  refine ⟨ofText_refuses JsonLayer.standard_conforms (Json.writes_text (by simpa using hdeep 127))
    (List.mem_of_getElem? (i := 3) rfl) (by simp) fun ⟨_, hd⟩ ↦ ?_, by decide +kernel,
    by decide +kernel⟩
  exact absurd hd (by decide +kernel)

end Event

end Diagram

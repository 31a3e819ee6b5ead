import Diagram.Payload.Json
import Diagram.Proofs.Json.Records
import Diagram.Proofs.Json.Standard

namespace Diagram

/-- A number is given by any numeral that is read as it. -/
def Codec.ByNumeral {β : Type} (c : Codec β) (x : β) (j : Json) : Prop :=
  ∃ n, j = .number n ∧ c.read (.number n) = .ok x

theorem Codec.ByNumeral.read {β : Type} {c : Codec β} {x : β} {j : Json} (h : c.ByNumeral x j) :
    c.read j = .ok x := by
  obtain ⟨n, rfl, hx⟩ := h
  exact hx

theorem JsonLayer.ReadsBack.byNumeral {β : Type} {layer : JsonLayer} {c : Codec β} {x : β}
    (h : layer.ReadsBack c x) : c.ByNumeral x (c.write x) := by
  obtain ⟨n, hn, -, hx⟩ := h
  exact ⟨n, hn, hx⟩

theorem JsonLayer.standard_byNumeral {n : Numeral} {x : Float} (h : n.double? = some x) :
    standard.double.ByNumeral x (.number n) := by
  refine ⟨n, rfl, ?_⟩
  simp only [standard, Json.asDouble, h]
  rfl

variable (layer : JsonLayer)

namespace NodeEntry

def forms (n : NodeEntry Float) : List FieldForm := [
  ⟨["id", "name"], (· = .string n.id), False⟩,
  ⟨["label"], (· = n.label.elim .null .string), n.label = none⟩,
  ⟨["x"], layer.double.ByNumeral n.x, False⟩,
  ⟨["y"], layer.double.ByNumeral n.y, False⟩,
  ⟨["status"], (· = .string n.status), n.status = ""⟩]

variable {layer} (hl : layer.Conforms)

include hl

theorem suits (n : NodeEntry Float) :
    List.Forall₂ (Suits (shape layer) n) (n.forms layer) (shape layer).fields := by
  simp only [forms, shape, List.forall₂_cons, List.Forall₂.nil, and_true]
  refine ⟨⟨rfl, ?_, False.elim⟩, ⟨rfl, ?_, fun h ↦ ⟨rfl, h⟩⟩, ⟨rfl, fun j hj _ ↦ hj.read, False.elim⟩,
    ⟨rfl, fun j hj _ ↦ hj.read, False.elim⟩, ⟨rfl, ?_, fun h ↦ ⟨rfl, h⟩⟩⟩
  · rintro j rfl -
    exact hl.read_string n.id
  · rintro j rfl -
    exact hl.read_optional n.label
  · rintro j rfl -
    exact hl.read_string n.status

theorem read_presents {n : NodeEntry Float} {j : Json} (h : Presents (n.forms layer) j)
    (hs : j.skipFault = none) : (codec layer).read j = .ok n := hl.read_presents (suits hl n) h hs

theorem write_eq (n : NodeEntry Float) : (codec layer).write n =
    .record (("id", .string n.id) :: n.label.toList.map (fun l ↦ ("label", Json.string l)) ++
      [("x", layer.double.write n.x), ("y", layer.double.write n.y),
        ("status", .string n.status)]) := by
  rw [codec, hl.write_record]
  cases hlabel : n.label <;>
    simp [RecordShape.members, shape, hlabel, hl.write_string, hl.write_option]

theorem presents_write {n : NodeEntry Float} (hx : layer.ReadsBack layer.double n.x)
    (hy : layer.ReadsBack layer.double n.y) : Presents (n.forms layer) ((codec layer).write n) := by
  rw [write_eq hl]
  refine .of_gives (.given (by simp) rfl ?_)
  have hrest : Gives (n.forms layer).tail.tail
      [("x", layer.double.write n.x), ("y", layer.double.write n.y), ("status", .string n.status)] :=
    .given (by simp) hx.byNumeral (.given (by simp) hy.byNumeral (.given (by simp) rfl .nil))
  cases hlabel : n.label with
  | none => exact .omitted rfl hrest
  | some l => exact .given (by simp) (by simp) hrest

theorem usable_write {n : NodeEntry Float} (hx : layer.ReadsBack layer.double n.x)
    (hy : layer.ReadsBack layer.double n.y) :
    ((codec layer).write n).Usable layer.accepts := by
  rw [write_eq hl]
  cases hlabel : n.label <;> simp [hx.keeps.2, hy.keeps.2]

end NodeEntry

namespace EdgeEntry

def forms (e : EdgeEntry) : List FieldForm := [
  ⟨["from", "dependency"], (· = .string e.source), False⟩,
  ⟨["to", "dependent"], (· = .string e.target), False⟩,
  ⟨["status"], (· = .string e.status), e.status = ""⟩]

variable {layer} (hl : layer.Conforms)

include hl

theorem suits (e : EdgeEntry) :
    List.Forall₂ (Suits (shape layer) e) e.forms (shape layer).fields := by
  simp only [forms, shape, List.forall₂_cons, List.Forall₂.nil, and_true]
  refine ⟨⟨rfl, ?_, False.elim⟩, ⟨rfl, ?_, False.elim⟩, ⟨rfl, ?_, fun h ↦ ⟨rfl, h⟩⟩⟩
  · rintro j rfl -
    exact hl.read_string e.source
  · rintro j rfl -
    exact hl.read_string e.target
  · rintro j rfl -
    exact hl.read_string e.status

theorem read_presents {e : EdgeEntry} {j : Json} (h : Presents e.forms j) (hs : j.skipFault = none) :
    (codec layer).read j = .ok e := hl.read_presents (suits hl e) h hs

theorem write_eq (e : EdgeEntry) : (codec layer).write e =
    .record [("from", .string e.source), ("to", .string e.target), ("status", .string e.status)] := by
  rw [codec, hl.write_record]
  simp [RecordShape.members, shape, hl.write_string]

theorem presents_write (e : EdgeEntry) : Presents e.forms ((codec layer).write e) := by
  rw [write_eq hl]
  exact .of_gives (.given (by simp) rfl (.given (by simp) rfl (.given (by simp) rfl .nil)))

end EdgeEntry

namespace Payload

def forms (p : Payload Float) : List FieldForm := [
  ⟨["nodes"], ListsWith (fun n ↦ Presents (n.forms layer)) p.nodes, p.nodes = []⟩,
  ⟨["edges", "dependencies"], ListsWith (fun e ↦ Presents e.forms) p.edges, p.edges = []⟩]

def fieldNames : List (List String) := [["nodes"], ["edges", "dependencies"]]

def nodeFieldNames : List (List String) := [["id", "name"], ["label"], ["x"], ["y"], ["status"]]

def edgeFieldNames : List (List String) := [["from", "dependency"], ["to", "dependent"], ["status"]]

/-- A graph, or a node or an edge in it, is an object with a field that is given twice. -/
inductive Repeats (j : Json) : Prop
  | graph {names : List String} (hn : names ∈ fieldNames) (h : Twice names j)
  | node {names : List String} {items : List Json} {cut : Option Obstacle} {i : Json}
      (hf : HasField ["nodes"] 0 j (.array items cut)) (hi : i ∈ items)
      (hn : names ∈ nodeFieldNames) (h : Twice names i)
  | edge {names : List String} {items : List Json} {cut : Option Obstacle} {i : Json}
      (hf : HasField ["edges", "dependencies"] 1 j (.array items cut)) (hi : i ∈ items)
      (hn : names ∈ edgeFieldNames) (h : Twice names i)

section Conforming

variable {layer} (hl : layer.Conforms)

include hl

theorem suits (p : Payload Float) :
    List.Forall₂ (Suits (shape layer) p) (p.forms layer) (shape layer).fields := by
  simp only [forms, shape, List.forall₂_cons, List.Forall₂.nil, and_true]
  refine ⟨⟨rfl, fun j hj hs ↦ ?_, fun h ↦ ⟨rfl, h⟩⟩, ⟨rfl, fun j hj hs ↦ ?_, fun h ↦ ⟨rfl, h⟩⟩⟩
  · exact hj.read hl hs fun n _ ↦ NodeEntry.read_presents hl
  · exact hj.read hl hs fun e _ ↦ EdgeEntry.read_presents hl

theorem read_presents {p : Payload Float} {j : Json} (h : Presents (p.forms layer) j)
    (hs : j.skipFault = none) : (codec layer).read j = .ok p := hl.read_presents (suits hl p) h hs

theorem write_eq (p : Payload Float) : (codec layer).write p =
    .record [("nodes", .list (p.nodes.map (NodeEntry.codec layer).write)),
      ("edges", .list (p.edges.map (EdgeEntry.codec layer).write))] := by
  rw [codec, hl.write_record]
  simp [RecordShape.members, shape, hl.write_list]

theorem presents_write {p : Payload Float} (h : ∀ n ∈ p.nodes,
    layer.ReadsBack layer.double n.x ∧ layer.ReadsBack layer.double n.y) :
    Presents (p.forms layer) ((codec layer).write p) := by
  have hn := listsWith_map fun n hn ↦ NodeEntry.presents_write hl (h n hn).1 (h n hn).2
  have he := listsWith_map fun e (_ : e ∈ p.edges) ↦ EdgeEntry.presents_write hl e
  rw [write_eq hl]
  exact .of_gives (.given (by simp) hn (.given (by simp) he .nil))

theorem usable_write {p : Payload Float} (h : ∀ n ∈ p.nodes,
    layer.ReadsBack layer.double n.x ∧ layer.ReadsBack layer.double n.y) :
    ((codec layer).write p).Usable layer.accepts := by
  simp only [write_eq hl, Json.sound_record, Json.sound_list, List.forall_mem_cons,
    List.forall_mem_map, List.not_mem_nil, false_imp_iff, implies_true, and_true]
  refine ⟨fun n hn ↦ NodeEntry.usable_write hl (h n hn).1 (h n hn).2, fun e _ ↦ ?_⟩
  simp [EdgeEntry.write_eq hl]

theorem read_repeats {j : Json} (h : Repeats j) : ∃ e, (codec layer).read j = .error e := by
  cases hp : (codec layer).read j with
  | error e => exact ⟨e, rfl⟩
  | ok p =>
    exfalso
    have hnames {ρ : Type} {r : RecordShape ρ} {names : List String}
        (hn : names ∈ r.fields.map Field.names) {x : ρ} {i : Json}
        (hx : (layer.record r).read i = .ok x) : ¬ Twice names i := by
      obtain ⟨f, hf, rfl⟩ := List.mem_map.mp hn
      exact hl.not_twice hx hf
    cases h with
    | graph hn h => exact hnames (r := shape layer) hn hp h
    | node hf hi hn h =>
      obtain ⟨nodes, hnodes⟩ := hl.reads_field (r := shape layer) hp (i := 0) rfl hf
      obtain ⟨n, hn'⟩ := hl.exists_item hnodes hi
      exact hnames (r := NodeEntry.shape layer) hn hn' h
    | edge hf hi hn h =>
      obtain ⟨edges, hedges⟩ := hl.reads_field (r := shape layer) hp (i := 1) rfl hf
      obtain ⟨e, he⟩ := hl.exists_item hedges hi
      exact hnames (r := EdgeEntry.shape layer) hn he h

end Conforming

/-- With a library of JSON that does as it is documented to, every text of every presentation of a
graph is decoded to the graph. What is written for a graph is one of them, if the numbers in it are
read back. A text in which an object gives a field twice is refused. -/
theorem ofText_presents {layer : JsonLayer} (hl : layer.Conforms) (p : Payload Float) :
    (∀ j s, Presents (p.forms layer) j → Json.Writes layer.accepts j s → ofText layer s = .ok p) ∧
    ((∀ n ∈ p.nodes, layer.ReadsBack layer.double n.x ∧ layer.ReadsBack layer.double n.y) →
      Presents (p.forms layer) ((codec layer).write p) ∧
      Json.Writes layer.accepts ((codec layer).write p) (text layer p) ∧
      ofText layer (text layer p) = .ok p) ∧
    ∀ j s, Repeats j → Json.Writes layer.accepts j s → ∃ e, ofText layer s = .error e := by
  have hall : ∀ j s, Presents (p.forms layer) j → Json.Writes layer.accepts j s →
      ofText layer s = .ok p := by
    rintro j s hj hs
    rw [ofText, hl.decode_eq _ hs]
    exact read_presents hl hj hs.skipFault
  refine ⟨hall, fun h ↦ ?_, fun j s hj hs ↦ ?_⟩
  · have hj := presents_write hl h
    have hs := hl.writes_text (usable_write hl h)
    exact ⟨hj, hs, hall _ _ hj hs⟩
  · rw [ofText, hl.decode_eq _ hs]
    exact read_repeats hl hj

theorem ofText_presents_shuffled :
    JsonLayer.standard.Conforms ∧
    ofText .standard (Json.record [("z", .null), ("dependencies", .list []), ("nodes", .list [.list [
      .string "a", .null, .number ⟨false, 0, [2], none⟩, .number ⟨false, 2, [], some (-1)⟩]])]).text =
        .ok ⟨[⟨"a", none, 0.2, 0.2, ""⟩], []⟩ ∧
    ofText .standard (text .standard ⟨[⟨"a", none, 0.2, 0.2, ""⟩], []⟩) =
      .ok ⟨[⟨"a", none, 0.2, 0.2, ""⟩], []⟩ ∧
    ∃ e, ofText .standard (Json.record [("edges", .list []), ("dependencies", .list [])]).text =
      .error e := by
  have hl := JsonLayer.standard_conforms
  obtain ⟨hpresents, hwritten, hrepeats⟩ := ofText_presents hl ⟨[⟨"a", none, 0.2, 0.2, ""⟩], []⟩
  have hplain : JsonLayer.standard.double.ByNumeral 0.2 (.number ⟨false, 0, [2], none⟩) :=
    JsonLayer.standard_byNumeral (by decide +kernel)
  have hscaled : JsonLayer.standard.double.ByNumeral 0.2 (.number ⟨false, 2, [], some (-1)⟩) :=
    JsonLayer.standard_byNumeral (by decide +kernel)
  have hback : JsonLayer.standard.ReadsBack JsonLayer.standard.double 0.2 := by decide +kernel
  have hnode : Presents (NodeEntry.forms .standard ⟨"a", none, 0.2, 0.2, ""⟩) (.list [.string "a",
      .null, .number ⟨false, 0, [2], none⟩, .number ⟨false, 2, [], some (-1)⟩]) :=
    .array (.given rfl (.given rfl (.given hplain (.given hscaled (.rest (by simp))))))
  have hgiven : Gives (forms .standard ⟨[⟨"a", none, 0.2, 0.2, ""⟩], []⟩) [("nodes", .list [_]),
      ("dependencies", .list [])] :=
    .given (by simp) ⟨_, rfl, .cons hnode .nil⟩ (.given (by simp) ⟨_, rfl, .nil⟩ .nil)
  have hother : ∀ m ∈ [("z", Json.null)],
      ∀ f ∈ forms .standard ⟨[⟨"a", none, 0.2, 0.2, ""⟩], []⟩, m.1 ∉ f.names := by simp [forms]
  refine ⟨hl, hpresents _ _ (.object hgiven hother (List.reverse_perm _)) (Json.writes_text ?_),
    (hwritten ?_).2.2, hrepeats (.record [("edges", .list []), ("dependencies", .list [])]) _
      (.graph (List.mem_of_getElem? (i := 1) rfl) ?_) (Json.writes_text ?_)⟩
  · have hr : Numeral.isInRange ⟨false, 0, [2], none⟩ ∧
        Numeral.isInRange ⟨false, 2, [], some (-1)⟩ := by decide +kernel
    simpa [JsonLayer.standard] using hr
  · simpa using hback
  · exact ⟨_, none, _, _, rfl, .refl _, by simp, by simp⟩
  · simp

end Payload

end Diagram

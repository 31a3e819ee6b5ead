import Diagram.Json.Layer
import Diagram.Proofs.Json.Grammar
import Mathlib.Data.List.Forall2
import Mathlib.Data.List.Pairwise

namespace Diagram

/-- What members mean as a record. The one under the names of a field has its value, and a field for
which there is none has that of the base, if it need not be given. Others are passed over. -/
structure RecordShape.Means {ρ : Type} (r : RecordShape ρ) (members : List (String × Json)) (x : ρ) :
    Prop where
  field {f : Field ρ} (hf : f ∈ r.fields) :
    (∃ m, members.filter (·.1 ∈ f.names) = [m] ∧ f.codec.read m.2 = .ok (f.get x)) ∨
      members.filter (·.1 ∈ f.names) = [] ∧ f.required = false ∧ f.get x = f.get r.base
  other {m : String × Json} (hm : m ∈ members) (ho : ∀ f ∈ r.fields, m.1 ∉ f.names) :
    m.2.skipFault = none

/-- What members mean as a value of a tagged type. The tag tells the variant, and the other members,
which are taken in whole, mean its content. -/
def TaggedShape.Means {ρ : Type} (t : TaggedShape ρ) (depth : Nat) (members : List (String × Json))
    (x : ρ) : Prop :=
  ∃ v ∈ t.variants, (∃ m, members.filter (·.1 = t.tagName) = [m] ∧ m.2 = .string v.tag) ∧
    (∀ m ∈ members, m.1 ≠ t.tagName → m.2.takeFault depth = none) ∧
    ∃ c, v.shape.Means (members.filter (·.1 ≠ t.tagName)) c ∧ v.make c = x

/-- What a library of JSON is documented to do. It reads and writes JSON, up to the numbers that it
accepts. Values of the common types stand for themselves, null for what is missing, and objects for
tables. A record is written as the object of its fields and read from an object or from the array of
its fields, and a tagged one has its tag before its fields. -/
structure JsonLayer.Conforms (layer : JsonLayer) : Prop where
  decode_eq {β : Type} (value : Json → Decoded β) {j : Json} {s : String}
    (h : Json.Writes layer.accepts j s) : layer.decode value s = value j
  writes_text {j : Json} (h : j.Usable layer.accepts) : Json.Writes layer.accepts j (layer.text j)
  one_lt_maxDepth : 1 < layer.maxDepth
  read_string (s : String) : layer.string.read (.string s) = .ok s
  write_string : layer.string.write = .string
  read_bool (b : Bool) : layer.bool.read (.bool b) = .ok b
  write_bool : layer.bool.write = .bool
  read_null {β : Type} (c : Codec β) : (layer.option c).read .null = .ok none
  read_some {β : Type} (c : Codec β) {j : Json} {x : β} (hj : j ≠ .null) (hx : c.read j = .ok x) :
    (layer.option c).read j = .ok (some x)
  write_option {β : Type} (c : Codec β) (x : Option β) :
    (layer.option c).write x = x.elim .null c.write
  read_list {β : Type} (c : Codec β) {items : List Json} {cut : Option Obstacle} {xs : List β} :
    (layer.list c).read (.array items cut) = .ok xs ↔
      cut = none ∧ List.Forall₂ (fun j x ↦ c.read j = .ok x) items xs
  write_list {β : Type} (c : Codec β) (xs : List β) : (layer.list c).write xs = .list (xs.map c.write)
  read_table {β : Type} (c : Codec β) {members : List (String × Json)} {t : Table β}
    (hn : (t.map Prod.fst).Nodup)
    (h : List.Forall₂ (fun m e ↦ m.1 = e.1 ∧ c.read m.2 = .ok e.2) members t) :
    (layer.table c).read (.record members) = .ok t
  write_table {β : Type} (c : Codec β) (t : Table β) :
    (layer.table c).write t = .record (t.map fun e ↦ (e.1, c.write e.2))
  read_object {ρ : Type} (r : RecordShape ρ) {members : List (String × Json)}
    {cut : Option Obstacle} {x : ρ} :
    (layer.record r).read (.object members cut) = .ok x ↔ cut = none ∧ r.Means members x
  read_array {ρ : Type} (r : RecordShape ρ) {items : List Json} {cut : Option Obstacle} {x : ρ} :
    (layer.record r).read (.array items cut) = .ok x ↔
      cut = none ∧ items.length ≤ r.fields.length ∧ r.Means (r.named items) x
  write_record {ρ : Type} (r : RecordShape ρ) (x : ρ) :
    (layer.record r).write x = .record (r.members x)
  read_tagged {ρ : Type} (t : TaggedShape ρ) {members : List (String × Json)}
    {cut : Option Obstacle} {x : ρ} :
    (layer.tagged t).read (.object members cut) = .ok x ↔
      cut = none ∧ t.Means (layer.maxDepth - 1) members x
  write_tagged {ρ : Type} (t : TaggedShape ρ) (x : ρ) : (layer.tagged t).write x =
    .record ((t.tagName, .string (t.split x).1.tag) :: (t.split x).1.shape.members (t.split x).2)

namespace JsonLayer.Conforms

variable {layer : JsonLayer} (hl : layer.Conforms)

include hl

theorem read_optional (s : Option String) :
    (layer.option layer.string).read (s.elim .null .string) = .ok s := by
  cases s with
  | none => exact hl.read_null layer.string
  | some s =>
    have hj : Json.string s ≠ .null := nofun
    exact hl.read_some layer.string hj (hl.read_string s)

theorem read_strings (ss : List String) :
    (layer.list layer.string).read (.list (ss.map .string)) = .ok ss := by
  have hread : ∀ s ∈ ss, layer.string.read (.string s) = .ok s := fun s _ ↦ hl.read_string s
  exact (hl.read_list layer.string).mpr
    ⟨rfl, List.forall₂_map_left_iff.mpr (List.forall₂_same.mpr hread)⟩

end JsonLayer.Conforms

/-- A number is read back: what is written for it is a numeral that is accepted and read as it. -/
def JsonLayer.ReadsBack {β : Type} (layer : JsonLayer) (c : Codec β) (x : β) : Prop :=
  ∃ n, c.write x = .number n ∧ layer.accepts n = true ∧ c.read (.number n) = .ok x

/-- A value is written without faults and read back. -/
def JsonLayer.Keeps {β : Type} (layer : JsonLayer) (c : Codec β) (x : β) : Prop :=
  c.read (c.write x) = .ok x ∧ (c.write x).Usable layer.accepts

theorem JsonLayer.ReadsBack.keeps {β : Type} {layer : JsonLayer} {c : Codec β} {x : β}
    (h : layer.ReadsBack c x) : layer.Keeps c x := by
  obtain ⟨n, hn, ha, hx⟩ := h
  rw [Keeps, hn]
  exact ⟨hx, ha⟩

namespace RecordShape

variable {ρ : Type} {r : RecordShape ρ} {members : List (String × Json)} {x : ρ} {f g : Field ρ}

instance : Std.Symm (Field.Apart (ρ := ρ)) :=
  ⟨fun _ _ h ↦ ⟨fun name ht hs ↦ h.1 name hs ht, h.2.2, h.2.1⟩⟩

theorem apart_of_ne (hf : f ∈ r.fields) (hg : g ∈ r.fields) (hne : f ≠ g) : f.Apart g :=
  r.apart.forall hf hg hne

theorem Means.exists_read (h : r.Means members x) (hf : f ∈ r.fields) {m : String × Json}
    (hm : m ∈ members) (hk : m.1 ∈ f.names) : ∃ v, f.codec.read m.2 = .ok v := by
  have hmem : m ∈ members.filter (·.1 ∈ f.names) := List.mem_filter.mpr ⟨hm, by simpa using hk⟩
  rcases h.field hf with ⟨m', hfilter, hread⟩ | ⟨hfilter, -⟩
  · rw [hfilter, List.mem_singleton] at hmem
    exact ⟨f.get x, hmem ▸ hread⟩
  · exact absurd (hfilter ▸ hmem) List.not_mem_nil

theorem Means.length_le (h : r.Means members x) (hf : f ∈ r.fields) :
    (members.filter (·.1 ∈ f.names)).length ≤ 1 := by
  rcases h.field hf with ⟨m, hfilter, -⟩ | ⟨hfilter, -⟩ <;> simp [hfilter]

end RecordShape

end Diagram

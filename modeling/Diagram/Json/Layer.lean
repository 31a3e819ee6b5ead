import Diagram.Json.Basic
import Diagram.Table

namespace Diagram

inductive Found
  | null
  | bool (b : Bool)
  | number (n : Numeral)
  | string (s : String)
  | array
  | object

inductive Expected
  | string
  | double
  | single
  | bool
  | array
  | object
  | record (title : String)
  | tag
  | tagged (title : String)

inductive DecodeError
  | fault (f : Fault)
  | mismatch (found : Found) (expected : Expected)
  | missingField (name : String)
  | duplicateField (name : String)
  | tooShort (length : Nat) (title : String) (fields : Nat)
  | tooLong (length fields : Nat)
  | unknownTag (tag : String) (known : List String)
  | custom (message : String)

abbrev Decoded (β : Type) := Except DecodeError β

structure Codec (β : Type) where
  read : Json → Decoded β
  write : β → Json

/-- A field of a record, how it is spelled in JSON, and where it is in the record. -/
structure Field (ρ : Type) where
  name : String
  aliases : List String := []
  {Value : Type}
  codec : Codec Value
  get : ρ → Value
  set : ρ → Value → ρ
  required : Bool := false
  /-- Values that are not written. -/
  hides : Value → Bool := fun _ => false
  get_set (x : ρ) (v : Value) : get (set x v) = v := by intros; rfl

namespace Field

variable {ρ : Type}

def names (f : Field ρ) : List String := f.name :: f.aliases

/-- Two fields have no name in common, and to set one leaves the other as it is. -/
def Apart (f g : Field ρ) : Prop :=
  (∀ name ∈ f.names, name ∉ g.names) ∧ (∀ x v, g.get (f.set x v) = g.get x) ∧
    ∀ x v, f.get (g.set x v) = f.get x

end Field

/-- A record as it is declared: its fields in order, which make it up, and the values that fields
have where they are not given. -/
structure RecordShape (ρ : Type) where
  title : String
  fields : List (Field ρ)
  base : ρ
  apart : fields.Pairwise Field.Apart
  ext (x y : ρ) : (∀ f ∈ fields, f.get x = f.get y) → x = y

namespace RecordShape

variable {ρ : Type} (r : RecordShape ρ)

def members (x : ρ) : List (String × Json) :=
  (r.fields.filter fun f => !f.hides (f.get x)).map fun f => (f.name, f.codec.write (f.get x))

def named (items : List Json) : List (String × Json) := (r.fields.map Field.name).zip items

def pair {β γ : Type} (title first second : String) (c : Codec β) (d : Codec γ) (base : β × γ)
    (required : Bool) (h : first ≠ second) : RecordShape (β × γ) where
  title := title
  fields := [
    { name := first, codec := c, required, get := Prod.fst, set := fun x v => (v, x.2) },
    { name := second, codec := d, required, get := Prod.snd, set := fun x v => (x.1, v) }]
  base := base
  apart := by simp [Field.Apart, Field.names, h]
  ext x y h := by simpa [Prod.ext_iff] using h

end RecordShape

structure Variant (ρ : Type) where
  tag : String
  {Content : Type}
  shape : RecordShape Content
  make : Content → ρ

/-- A type of records that one of their members, the tag, tells apart. -/
structure TaggedShape (ρ : Type) where
  title : String
  tagName : String
  variants : List (Variant ρ)
  split : ρ → (v : Variant ρ) × v.Content
  distinct : (variants.map Variant.tag).Nodup
  split_mem (x : ρ) : (split x).1 ∈ variants
  make_split (x : ρ) : (split x).1.make (split x).2 = x

/-- What is taken from a library of JSON: its reader and its printer, and how it reads and writes
values of the common types and of types that are declared to it. -/
structure JsonLayer where
  accepts : Numeral → Bool
  /-- How deep arrays and objects may lie in one another in a value that is taken in whole. -/
  maxDepth : Nat
  decode {β : Type} : (Json → Decoded β) → String → Decoded β
  text : Json → String
  pretty : Json → String
  string : Codec String
  bool : Codec Bool
  double : Codec Float
  single : Codec Float32
  option {β : Type} : Codec β → Codec (Option β)
  list {β : Type} : Codec β → Codec (List β)
  table {β : Type} : Codec β → Codec (Table β)
  record {ρ : Type} : RecordShape ρ → Codec ρ
  tagged {ρ : Type} : TaggedShape ρ → Codec ρ

end Diagram

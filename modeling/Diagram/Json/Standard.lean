import Diagram.Json.Layer
import Diagram.Json.Number
import Diagram.Json.Printer
import Diagram.Json.Reader
import Diagram.Number.Text

namespace Diagram

namespace Json

def refuse (j : Json) (expected : Expected) : DecodeError :=
  match j with
  | .null => .mismatch .null expected
  | .bool b => .mismatch (.bool b) expected
  | .number n => .mismatch (.number n) expected
  | .string s => .mismatch (.string s) expected
  | .array .. => .mismatch .array expected
  | .object .. => .mismatch .object expected
  | .broken o => .fault o.reading

def asString : Json → Decoded String
  | .string s => .ok s
  | j => .error (j.refuse .string)

def asBool : Json → Decoded Bool
  | .bool b => .ok b
  | j => .error (j.refuse .bool)

def asDouble : Json → Decoded Float
  | .number n => n.double?.elim (.error (.fault .malformed)) .ok
  | j => .error (j.refuse .double)

def asSingle : Json → Decoded Float32
  | .number n => n.single?.elim (.error (.fault .malformed)) .ok
  | j => .error (j.refuse .single)

def uncut (cut : Option Obstacle) : Decoded Unit :=
  match cut with
  | none => .ok ()
  | some o => .error (.fault o.reading)

variable {β : Type} (value : Json → Decoded β)

def asList : Json → Decoded (List β)
  | .array items cut => do
    let values ← items.mapM value
    uncut cut
    return values
  | j => .error (j.refuse .array)

def asOption : Json → Decoded (Option β)
  | .null => .ok none
  | j => some <$> value j

def asTable : Json → Decoded (Table β)
  | .object members cut => do
    let t ← members.foldlM (fun (t : Table β) m => return t.put m.1 (← value m.2)) []
    uncut cut
    return t
  | j => .error (j.refuse .object)

def skip (j : Json) : Decoded Unit :=
  match j.skipFault with
  | none => .ok ()
  | some f => .error (.fault f)

def take (depth : Nat) (j : Json) : Decoded Unit :=
  match j.takeFault depth with
  | none => .ok ()
  | some f => .error (.fault f)

def decode (s : String) : Decoded β := do
  let d := read s
  let x ← value d.value
  if d.trailing then .error (.fault .malformed) else .ok x

def ofDouble (x : Float) : Json :=
  (NumberLayout.json.numeral? .double (Binary.ofFloat x)).elim .null .number

def ofSingle (x : Float32) : Json :=
  (NumberLayout.json.numeral? .single (Binary.ofFloat32 x)).elim .null .number

end Json

/-- A record that is being read, and the names of the fields that have been given. -/
structure Filling (ρ : Type) where
  record : ρ
  given : List String := []

namespace RecordShape

variable {ρ : Type} (r : RecordShape ρ)

/-- Gives a field, which must not have been given yet. Members of other names are passed over. -/
def fill (x : Filling ρ) (m : String × Json) : Decoded (Filling ρ) :=
  match r.fields.find? (m.1 ∈ ·.names) with
  | some f =>
    if f.name ∈ x.given then .error (.duplicateField f.name)
    else return ⟨f.set x.record (← f.codec.read m.2), f.name :: x.given⟩
  | none => do
    m.2.skip
    return x

def fillAll (members : List (String × Json)) : Decoded (Filling ρ) :=
  members.foldlM r.fill { record := r.base }

def missing? (x : Filling ρ) : Option (Field ρ) :=
  r.fields.find? fun f => f.required && f.name ∉ x.given

def ofMembers (members : List (String × Json)) (cut : Option Obstacle) : Decoded ρ := do
  let x ← r.fillAll members
  Json.uncut cut
  match r.missing? x with
  | none => .ok x.record
  | some f => .error (.missingField f.name)

def ofItems (items : List Json) (cut : Option Obstacle) : Decoded ρ := do
  let x ← r.fillAll (r.named items)
  if r.fields.length < items.length then .error (.fault .malformed)
  Json.uncut cut
  match r.missing? x with
  | none => .ok x.record
  | some f =>
    .error (.tooShort ((r.fields.map Field.name).idxOf f.name) ("struct " ++ r.title) r.fields.length)

def ofJson : Json → Decoded ρ
  | .object members cut => r.ofMembers members cut
  | .array items cut => r.ofItems items cut
  | j => .error (j.refuse (.record r.title))

end RecordShape

/-- The tag and the other members of an object, which are taken in whole before any of them is looked
at, since the tag may come last. -/
structure Tagged where
  tag : Option String := none
  members : List (String × Json) := []

namespace TaggedShape

variable {ρ : Type} (t : TaggedShape ρ) (depth : Nat)

def asTag : Json → Decoded String
  | .string s =>
    if s ∈ t.variants.map Variant.tag then .ok s
    else .error (.unknownTag s (t.variants.map Variant.tag))
  | j => .error (j.refuse .tag)

def sort (x : Tagged) (m : String × Json) : Decoded Tagged :=
  if m.1 = t.tagName then
    if x.tag.isSome then .error (.duplicateField t.tagName)
    else return { x with tag := some (← t.asTag m.2) }
  else do
    m.2.take depth
    return { x with members := x.members ++ [m] }

def withVariant (tag : Option String) (next : Variant ρ → Decoded ρ) : Decoded ρ :=
  match t.variants.find? (tag = some ·.tag) with
  | none => .error (.missingField t.tagName)
  | some v => next v

def ofMembers (members : List (String × Json)) (cut : Option Obstacle) : Decoded ρ := do
  let x ← members.foldlM (t.sort depth) {}
  Json.uncut cut
  t.withVariant x.tag fun v => v.make <$> v.shape.ofMembers x.members none

/-- The first item of an array is the tag, and the others are the fields in order. -/
def ofItems (items : List Json) (cut : Option Obstacle) : Decoded ρ := do
  match items with
  | [] =>
    Json.uncut cut
    .error (.missingField t.tagName)
  | tag :: items =>
    let tag ← t.asTag tag
    items.forM (Json.take depth)
    Json.uncut cut
    t.withVariant tag fun v => do
      let x ← v.shape.fillAll (v.shape.named items)
      let fields := v.shape.fields.length
      if items.length < fields then
        .error (.tooShort items.length ("struct variant " ++ t.title ++ "::" ++ v.shape.title) fields)
      else if fields < items.length then .error (.tooLong items.length fields)
      else .ok (v.make x.record)

def ofJson : Json → Decoded ρ
  | .object members cut => t.ofMembers depth members cut
  | .array items cut => t.ofItems depth items cut
  | j => .error (j.refuse (.tagged t.title))

def toJson (x : ρ) : Json :=
  let ⟨v, c⟩ := t.split x
  .record ((t.tagName, .string v.tag) :: v.shape.members c)

end TaggedShape

namespace JsonLayer

def standardDepth : Nat := 127

def standard : JsonLayer where
  accepts := Numeral.isInRange
  maxDepth := standardDepth
  decode := Json.decode
  text := Json.text
  pretty := Json.pretty
  string := ⟨Json.asString, .string⟩
  bool := ⟨Json.asBool, .bool⟩
  double := ⟨Json.asDouble, Json.ofDouble⟩
  single := ⟨Json.asSingle, Json.ofSingle⟩
  option c := ⟨Json.asOption c.read, fun x => x.elim .null c.write⟩
  list c := ⟨Json.asList c.read, fun xs => .list (xs.map c.write)⟩
  table c := ⟨Json.asTable c.read, fun t => .record (t.map fun e => (e.1, c.write e.2))⟩
  record r := ⟨r.ofJson, fun x => .record (r.members x)⟩
  tagged t := ⟨t.ofJson (standardDepth - 1), t.toJson⟩

end JsonLayer

end Diagram

import Diagram.Json.Basic

namespace Diagram

inductive SpellsWhole : Nat → List Char → Prop
  | digit (d : Fin 10) : SpellsWhole d.val [digitChar d]
  | digits {d : Fin 10} (hd : d ≠ 0) (ds : List (Fin 10)) :
      SpellsWhole (ofDigits (d :: ds)) ((d :: ds).map digitChar)

inductive SpellsFraction : List (Fin 10) → List Char → Prop
  | absent : SpellsFraction [] []
  | digits (d : Fin 10) (ds : List (Fin 10)) :
      SpellsFraction (d :: ds) ('.' :: (d :: ds).map digitChar)

inductive SpellsSign : Bool → List Char → Prop
  | absent : SpellsSign false []
  | plus : SpellsSign false ['+']
  | minus : SpellsSign true ['-']

inductive SpellsExponent : Option Int → List Char → Prop
  | absent : SpellsExponent none []
  | digits {mark : Char} (hm : mark = 'e' ∨ mark = 'E') {negative : Bool} {sign : List Char}
      (hs : SpellsSign negative sign) (d : Fin 10) (ds : List (Fin 10)) :
      SpellsExponent
        (some (if negative then -(ofDigits (d :: ds) : Int) else (ofDigits (d :: ds) : Int)))
        (mark :: sign ++ (d :: ds).map digitChar)

inductive SpellsNumeral : Numeral → List Char → Prop
  | mk (negative : Bool) {whole : Nat} {fraction : List (Fin 10)} {exponent : Option Int}
      {w f e : List Char} (hw : SpellsWhole whole w) (hf : SpellsFraction fraction f)
      (he : SpellsExponent exponent e) :
      SpellsNumeral ⟨negative, whole, fraction, exponent⟩
        ((if negative then ['-'] else []) ++ w ++ f ++ e)

namespace Json

inductive SpellsHex : Nat → Char → Prop
  | lower {n : Nat} (hn : n < 16) : SpellsHex n n.digitChar
  | upper {n : Nat} (hn : n < 16) : SpellsHex n n.digitChar.toUpper

inductive SpellsUnit : Nat → List Char → Prop
  | mk {a b c d : Nat} {p q r s : Char} (ha : SpellsHex a p) (hb : SpellsHex b q)
      (hc : SpellsHex c r) (hd : SpellsHex d s) :
      SpellsUnit (4096 * a + 256 * b + 16 * c + d) ['\\', 'u', p, q, r, s]

def shortEscapes : List (Char × Char) :=
  [('"', '"'), ('\\', '\\'), ('/', '/'), ('b', '\x08'), ('f', '\x0c'), ('n', '\n'), ('r', '\r'),
    ('t', '\t')]

def IsSurrogate (n : Nat) : Prop := 0xD800 ≤ n ∧ n < 0xE000

def IsTrailing (n : Nat) : Prop := 0xDC00 ≤ n ∧ n < 0xE000

/-- A text of a string between its quotes, which is whole unless it holds half of a surrogate pair.
Two halves that follow one another and could be a pair are one. -/
inductive SpellsString : List Char → Bool → List Char → Prop
  | nil : SpellsString [] true []
  | plain {c : Char} {cs t : List Char} {whole : Bool} (hq : c ≠ '"') (hb : c ≠ '\\')
      (hc : 32 ≤ c.toNat) (h : SpellsString cs whole t) : SpellsString (c :: cs) whole (c :: t)
  | short {c e : Char} {cs t : List Char} {whole : Bool} (he : (e, c) ∈ shortEscapes)
      (h : SpellsString cs whole t) : SpellsString (c :: cs) whole ('\\' :: e :: t)
  | unit {c : Char} {cs t u : List Char} {whole : Bool} (hu : SpellsUnit c.toNat u)
      (h : SpellsString cs whole t) : SpellsString (c :: cs) whole (u ++ t)
  | pair {c : Char} {cs t u v : List Char} {whole : Bool} (hc : 0x10000 ≤ c.toNat)
      (hu : SpellsUnit (0xD800 + (c.toNat - 0x10000) / 0x400) u)
      (hv : SpellsUnit (0xDC00 + (c.toNat - 0x10000) % 0x400) v)
      (h : SpellsString cs whole t) : SpellsString (c :: cs) whole (u ++ (v ++ t))
  | half {n : Nat} {cs t u : List Char} {whole : Bool} (hn : IsSurrogate n) (hu : SpellsUnit n u)
      (hp : ¬ IsTrailing n → ∀ m v t', t = v ++ t' → SpellsUnit m v → ¬ IsTrailing m)
      (h : SpellsString cs whole t) : SpellsString cs false (u ++ t)

def Spaces (w : List Char) : Prop := ∀ c ∈ w, c = ' ' ∨ c = '\n' ∨ c = '\t' ∨ c = '\r'

/-- A key with the spaces around it and the colon behind it. One with half of a surrogate pair is no
text, and gives none. -/
inductive SpellsKey : Option String → List Char → Prop
  | mk {key : String} {w t v : List Char} (hw : Spaces w) (h : SpellsString key.toList true t)
      (hv : Spaces v) : SpellsKey (some key) (w ++ '"' :: t ++ '"' :: v ++ [':'])
  | halves {cs w t v : List Char} (hw : Spaces w) (h : SpellsString cs false t) (hv : Spaces v) :
      SpellsKey none (w ++ '"' :: t ++ '"' :: v ++ [':'])

/-- The members of an object, and what cuts it: a key that is no text ends it for a reader, who has
not come that far. -/
def withKey (key : Option String) (j : Json) (rest : List (String × Json) × Option Obstacle) :
    List (String × Json) × Option Obstacle :=
  match key with
  | some k => ((k, j) :: rest.1, rest.2)
  | none => ([], some .unusable)

section Texts

variable (accepts : Numeral → Bool)

mutual

/-- The texts of a value: the grammar of JSON. A number that is not accepted and a string with half of
a surrogate pair are well formed, and yet nothing to work with. -/
inductive Spells : Json → List Char → Prop
  | null : Spells .null ['n', 'u', 'l', 'l']
  | isTrue : Spells (.bool true) ['t', 'r', 'u', 'e']
  | isFalse : Spells (.bool false) ['f', 'a', 'l', 's', 'e']
  | number {n : Numeral} {t : List Char} (h : SpellsNumeral n t) (ha : accepts n = true) :
      Spells (.number n) t
  | beyond {n : Numeral} {t : List Char} (h : SpellsNumeral n t) (ha : accepts n = false) :
      Spells (.broken .unusable) t
  | string {s : String} {t : List Char} (h : SpellsString s.toList true t) :
      Spells (.string s) ('"' :: t ++ ['"'])
  | halves {cs t : List Char} (h : SpellsString cs false t) :
      Spells (.broken .unusable) ('"' :: t ++ ['"'])
  | emptyArray {w : List Char} (hw : Spaces w) : Spells (.list []) ('[' :: w ++ [']'])
  | array {items : List Json} {t : List Char} (h : SpellsItems items t) :
      Spells (.list items) ('[' :: t)
  | emptyObject {w : List Char} (hw : Spaces w) : Spells (.record []) ('\x7b' :: w ++ ['\x7d'])
  | object {members : List (String × Json) × Option Obstacle} {t : List Char}
      (h : SpellsMembers members t) : Spells (.object members.1 members.2) ('\x7b' :: t)

inductive SpellsItems : List Json → List Char → Prop
  | last {j : Json} {w t v : List Char} (hw : Spaces w) (h : Spells j t) (hv : Spaces v) :
      SpellsItems [j] (w ++ t ++ v ++ [']'])
  | cons {j : Json} {items : List Json} {w t v u : List Char} (hw : Spaces w) (h : Spells j t)
      (hv : Spaces v) (hs : SpellsItems items u) :
      SpellsItems (j :: items) (w ++ t ++ v ++ ',' :: u)

inductive SpellsMembers : List (String × Json) × Option Obstacle → List Char → Prop
  | last {key : Option String} {j : Json} {k w t v : List Char} (hk : SpellsKey key k)
      (hw : Spaces w) (h : Spells j t) (hv : Spaces v) :
      SpellsMembers (withKey key j ([], none)) (k ++ w ++ t ++ v ++ ['\x7d'])
  | cons {key : Option String} {j : Json} {rest : List (String × Json) × Option Obstacle}
      {k w t v u : List Char} (hk : SpellsKey key k) (hw : Spaces w) (h : Spells j t)
      (hv : Spaces v) (hs : SpellsMembers rest u) :
      SpellsMembers (withKey key j rest) (k ++ w ++ t ++ v ++ ',' :: u)

end

inductive Writes (j : Json) : String → Prop
  | mk {w t v : List Char} (hw : Spaces w) (h : Spells accepts j t) (hv : Spaces v) :
      Writes j (String.ofList (w ++ t ++ v))

end Texts

theorem skipMembers_withKey (key : Option String) {j : Json}
    {rest : List (String × Json) × Option Obstacle} (hj : j.skipFault = none)
    (hrest : skipMembers rest.1 rest.2 = none) :
    skipMembers (withKey key j rest).1 (withKey key j rest).2 = none := by
  cases key with
  | some k => simp [withKey, skipMembers, hj, hrest]
  | none => rfl

mutual

/-- One who passes over a well-formed value is not stopped. -/
theorem Spells.skipFault {accepts : Numeral → Bool} {j : Json} {t : List Char} :
    Spells accepts j t → j.skipFault = none
  | .null | .isTrue | .isFalse | .number .. | .beyond .. | .string _ | .halves _ | .emptyArray _
  | .emptyObject _ => rfl
  | .array h => h.skipItems
  | .object h => h.skipMembers

theorem SpellsItems.skipItems {accepts : Numeral → Bool} {items : List Json} {t : List Char} :
    SpellsItems accepts items t → Json.skipItems items none = none
  | .last _ h _ => by simp [Json.skipItems, h.skipFault]
  | .cons _ h _ hs => by simp [Json.skipItems, h.skipFault, hs.skipItems]

theorem SpellsMembers.skipMembers {accepts : Numeral → Bool}
    {members : List (String × Json) × Option Obstacle} {t : List Char} :
    SpellsMembers accepts members t → Json.skipMembers members.1 members.2 = none
  | .last _ _ h _ => skipMembers_withKey _ h.skipFault rfl
  | .cons _ _ h _ hs => skipMembers_withKey _ h.skipFault hs.skipMembers

end

theorem Writes.skipFault {accepts : Numeral → Bool} {j : Json} {s : String} (h : Writes accepts j s) :
    j.skipFault = none := by
  obtain ⟨-, h, -⟩ := h
  exact h.skipFault

mutual

/-- Nothing in a value is cut or broken, and its numbers are as `p` says. -/
def Sound (p : Numeral → Prop) : Json → Prop
  | .number n => p n
  | .array items cut => cut = none ∧ SoundItems p items
  | .object members cut => cut = none ∧ SoundMembers p members
  | .broken _ => False
  | _ => True

def SoundItems (p : Numeral → Prop) : List Json → Prop
  | [] => True
  | j :: rest => Sound p j ∧ SoundItems p rest

def SoundMembers (p : Numeral → Prop) : List (String × Json) → Prop
  | [] => True
  | (_, j) :: rest => Sound p j ∧ SoundMembers p rest

end

abbrev Whole (j : Json) : Prop := j.Sound fun _ ↦ True

/-- A value to write: one without faults, the numbers of which are accepted. -/
abbrev Usable (accepts : Numeral → Bool) (j : Json) : Prop := j.Sound (accepts · = true)

section Sound

variable {p : Numeral → Prop}

theorem soundItems_iff {items : List Json} : SoundItems p items ↔ ∀ j ∈ items, j.Sound p := by
  induction items with
  | nil => simp [SoundItems]
  | cons j items ih => simp [SoundItems, ih]

theorem soundMembers_iff {members : List (String × Json)} :
    SoundMembers p members ↔ ∀ m ∈ members, m.2.Sound p := by
  induction members with
  | nil => simp [SoundMembers]
  | cons m members ih => simp [SoundMembers, ih]

@[simp]
theorem sound_list {items : List Json} : (list items).Sound p ↔ ∀ j ∈ items, j.Sound p := by
  rw [← soundItems_iff]
  exact and_iff_right rfl

@[simp]
theorem sound_record {members : List (String × Json)} :
    (record members).Sound p ↔ ∀ m ∈ members, m.2.Sound p := by
  rw [← soundMembers_iff]
  exact and_iff_right rfl

@[simp]
theorem sound_string (s : String) : (string s).Sound p := trivial

@[simp]
theorem sound_number (n : Numeral) : (number n).Sound p ↔ p n := Iff.rfl

@[simp]
theorem sound_null : null.Sound p := trivial

@[simp]
theorem sound_bool (b : Bool) : (bool b).Sound p := trivial

end Sound

end Json

end Diagram

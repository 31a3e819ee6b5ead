import Diagram.Json.Reader
import Diagram.Proofs.Json.Grammar
import Mathlib.Tactic.IntervalCases

namespace Diagram

theorem digit?_digitChar (d : Fin 10) : digit? (digitChar d) = some d := by
  revert d
  decide

theorem digitChar_ne_sign (d : Fin 10) : digitChar d ≠ '+' ∧ digitChar d ≠ '-' := by
  revert d
  decide

/-- What a number can stand before: nothing that would go on with it. -/
def Stops (rest : List Char) : Prop :=
  ∀ c ∈ rest.head?, digit? c = none ∧ c ≠ '.' ∧ c ≠ 'e' ∧ c ≠ 'E'

theorem stops_nil : Stops [] := nofun

namespace Json

theorem isSpace_iff (c : Char) : isSpace c = true ↔ c = ' ' ∨ c = '\n' ∨ c = '\t' ∨ c = '\r' := by
  simp [isSpace, or_assoc]

theorem skipSpaces_append {w : List Char} (hw : Spaces w) (cs : List Char) :
    skipSpaces (w ++ cs) = skipSpaces cs := by
  induction w with
  | nil => rfl
  | cons c w ih =>
    have hc : isSpace c = true := (isSpace_iff c).mpr (hw c List.mem_cons_self)
    rw [List.cons_append, skipSpaces, List.dropWhile_cons_of_pos hc]
    exact ih fun x hx ↦ hw x (List.mem_cons_of_mem c hx)

theorem skipSpaces_cons {c : Char} (hc : isSpace c = false) (cs : List Char) :
    skipSpaces (c :: cs) = c :: cs := List.dropWhile_cons_of_neg (by simp [hc])

theorem stops_spaces {v : List Char} (hv : Spaces v) {c : Char} (hc : c = ',' ∨ c = ']' ∨ c = '\x7d')
    (cs : List Char) : Stops (v ++ c :: cs) := by
  intro x hx
  cases v with
  | nil =>
    cases hx
    rcases hc with rfl | rfl | rfl <;> decide
  | cons y v =>
    cases hx
    rcases hv x List.mem_cons_self with rfl | rfl | rfl | rfl <;> decide

theorem stops_of_spaces {v : List Char} (hv : Spaces v) : Stops v := by
  cases v with
  | nil => exact stops_nil
  | cons y v =>
    intro x hx
    cases hx
    rcases hv y List.mem_cons_self with rfl | rfl | rfl | rfl <;> decide

section Numbers

variable {rest : List Char}

theorem takeDigits_append (ds : List (Fin 10)) (h : ∀ c ∈ rest.head?, digit? c = none) :
    takeDigits (ds.map digitChar ++ rest) = (ds, rest) := by
  have hds : ∀ c ∈ ds.map digitChar, (digit? c).isSome = true := by
    intro c hc
    obtain ⟨d, -, rfl⟩ := List.mem_map.mp hc
    rw [digit?_digitChar]
    rfl
  have hrest : rest.takeWhile (digit? · |>.isSome) = [] ∧
      rest.dropWhile (digit? · |>.isSome) = rest := by
    cases rest with
    | nil => exact ⟨rfl, rfl⟩
    | cons c rest => simp [h c rfl]
  have hback : (ds.map digitChar).filterMap digit? = ds := by
    have hid : digit? ∘ digitChar = some := funext digit?_digitChar
    rw [List.filterMap_map, hid, List.filterMap_some]
  rw [takeDigits, List.takeWhile_append_of_pos hds, List.dropWhile_append_of_pos hds, hrest.1,
    hrest.2, List.append_nil, hback]

theorem readExponent_spells {n : Numeral} (hn : n.exponent = none) {e : Option Int} {t : List Char}
    (h : SpellsExponent e t) (hr : Stops rest) :
    readExponent n (t ++ rest) = finishNumber { n with exponent := e } rest := by
  cases h with
  | absent =>
    have hn' : { n with exponent := none } = n := by rw [← hn]
    rw [hn', List.nil_append]
    cases rest with
    | nil => rfl
    | cons c rest =>
      obtain ⟨-, -, he, hE⟩ := hr c rfl
      simp [readExponent, he, hE]
  | @digits mark hm negative sign hs d ds =>
    have hread := takeDigits_append (d :: ds) fun c hc ↦ (hr c hc).1
    rw [List.map_cons, List.cons_append] at hread
    obtain ⟨hplus, hminus⟩ := digitChar_ne_sign d
    rcases hm with rfl | rfl <;> cases hs <;>
      simp [readExponent, hread, hplus, hminus]

theorem readFraction_spells {n : Numeral} (hf : n.fraction = []) (hn : n.exponent = none)
    {f : List (Fin 10)} {e : Option Int} {t u : List Char} (h : SpellsFraction f t)
    (he : SpellsExponent e u) (hr : Stops rest) :
    readFraction n (t ++ (u ++ rest)) =
      finishNumber { n with fraction := f, exponent := e } rest := by
  have hexp := readExponent_spells hn he hr
  cases h with
  | absent =>
    have hn' : { n with fraction := [], exponent := e } = { n with exponent := e } := by rw [← hf]
    rw [hn', ← hexp, List.nil_append]
    cases he with
    | absent =>
      cases rest with
      | nil => rfl
      | cons c rest =>
        obtain ⟨-, hp, -, -⟩ := hr c rfl
        simp [readFraction, hp]
    | digits hm => rcases hm with rfl | rfl <;> rfl
  | digits d ds =>
    have hstop : ∀ c ∈ (u ++ rest).head?, digit? c = none := by
      cases he with
      | absent => exact fun c hc ↦ (hr c hc).1
      | digits hm =>
        rintro c ⟨⟩
        rcases hm with rfl | rfl <;> rfl
    have hread := takeDigits_append (d :: ds) hstop
    rw [List.map_cons, List.cons_append] at hread
    simp only [readFraction, List.map_cons, List.cons_append, hread]
    exact readExponent_spells (n := { n with fraction := d :: ds }) hn he hr

theorem readNumber_spells (negative : Bool) {whole : Nat} {f : List (Fin 10)} {e : Option Int}
    {t u v : List Char} (h : SpellsWhole whole t) (hf : SpellsFraction f u)
    (he : SpellsExponent e v) (hr : Stops rest) :
    readNumber negative (t ++ (u ++ (v ++ rest))) = finishNumber ⟨negative, whole, f, e⟩ rest := by
  have hstop : ∀ c ∈ (u ++ (v ++ rest)).head?, digit? c = none := by
    cases hf with
    | absent =>
      cases he with
      | absent => exact fun c hc ↦ (hr c hc).1
      | digits hm =>
        rintro c ⟨⟩
        rcases hm with rfl | rfl <;> rfl
    | digits d ds =>
      rintro c ⟨⟩
      rfl
  cases h with
  | digit d =>
    have hread := takeDigits_append [d] hstop
    rw [List.map_singleton] at hread
    simp only [readNumber, hread]
    exact readFraction_spells rfl rfl hf he hr
  | @digits d hd ds =>
    have hread := takeDigits_append (d :: ds) hstop
    have hd' : d.val ≠ 0 := fun h ↦ hd (Fin.ext h)
    cases ds with
    | nil =>
      have hone : ofDigits [d] = d.val := by simp [ofDigits]
      simp only [readNumber, hread]
      rw [hone]
      exact readFraction_spells rfl rfl hf he hr
    | cons d' ds =>
      simp only [readNumber, hread, hd', ↓reduceIte]
      exact readFraction_spells rfl rfl hf he hr

theorem readValue_digit (fuel : Nat) (d : Fin 10) (cs : List Char) :
    readValue (fuel + 1) (digitChar d :: cs) = readNumber false (digitChar d :: cs) := by
  obtain ⟨k, hk⟩ := d
  interval_cases k <;> rfl

theorem readValue_numeral (fuel : Nat) {n : Numeral} {t : List Char} (h : SpellsNumeral n t)
    (hr : Stops rest) : readValue (fuel + 1) (t ++ rest) = finishNumber n rest := by
  cases h with
  | mk negative hw hf he =>
    have hread := readNumber_spells negative hw hf he hr
    simp only [List.append_assoc] at hread ⊢
    cases negative with
    | true => exact hread
    | false =>
      rw [← hread]
      cases hw with
      | digit d => exact readValue_digit fuel d _
      | digits hd ds => exact readValue_digit fuel _ _

end Numbers

section Strings

theorem hexDigit?_spells {n : Nat} {c : Char} (h : SpellsHex n c) : hexDigit? c = some n := by
  have hall : ∀ d : Fin 16, hexDigit? d.val.digitChar = some d.val ∧
      hexDigit? d.val.digitChar.toUpper = some d.val := by decide
  cases h with
  | lower hn => exact (hall ⟨n, hn⟩).1
  | upper hn => exact (hall ⟨n, hn⟩).2

theorem readHex_spells {n : Nat} {u : List Char} (h : SpellsUnit n u) :
    ∃ v, u = '\\' :: 'u' :: v ∧ ∀ cs, readHex (v ++ cs) = .ok (n, cs) := by
  obtain ⟨ha, hb, hc, hd⟩ := h
  refine ⟨_, rfl, fun cs ↦ ?_⟩
  simp [readHex, hexDigit?_spells ha, hexDigit?_spells hb, hexDigit?_spells hc,
    hexDigit?_spells hd]

theorem SpellsUnit.length_eq {n : Nat} {u : List Char} (h : SpellsUnit n u) : u.length = 6 := by
  cases h
  rfl

theorem simpleEscape?_of_mem {e c : Char} (h : (e, c) ∈ shortEscapes) :
    simpleEscape? e = some c ∧ e ≠ 'u' := by
  have hall : ∀ p ∈ shortEscapes, simpleEscape? p.1 = some p.2 ∧ p.1 ≠ 'u' := by decide
  exact hall _ h

theorem isLowSurrogate_iff (n : Nat) : isLowSurrogate n = true ↔ IsTrailing n := by
  simp [isLowSurrogate, IsTrailing]

theorem not_isSurrogate (c : Char) : ¬ IsSurrogate c.toNat := by
  intro h
  have hv : c.toNat < 0xD800 ∨ 0xDFFF < c.toNat ∧ c.toNat < 0x110000 := c.valid
  obtain ⟨h₁, h₂⟩ := h
  omega

theorem pairChar_halves {c : Char} (h : 0x10000 ≤ c.toNat) :
    pairChar (0xD800 + (c.toNat - 0x10000) / 0x400) (0xDC00 + (c.toNat - 0x10000) % 0x400) = c := by
  have hn : (0xD800 + (c.toNat - 0x10000) / 0x400 - 0xD800) * 0x400 +
      (0xDC00 + (c.toNat - 0x10000) % 0x400 - 0xDC00) + 0x10000 = c.toNat := by omega
  rw [pairChar, hn, Char.ofNat_toNat]

theorem exists_unit_of_escape {cs t x : List Char} {whole : Bool} (h : SpellsString cs whole t)
    (ht : t = '\\' :: 'u' :: x) : ∃ m u t', SpellsUnit m u ∧ t = u ++ t' := by
  cases h with
  | nil => cases ht
  | plain hq hb hc h => exact absurd (List.cons.inj ht).1 hb
  | short he h => exact absurd (List.cons.inj (List.cons.inj ht).2).1 (simpleEscape?_of_mem he).2
  | unit hu h => exact ⟨_, _, _, hu, rfl⟩
  | pair hc hu hv h => exact ⟨_, _, _, hu, rfl⟩
  | half hn hu hp h => exact ⟨_, _, _, hu, rfl⟩

theorem readString_plain (done : List Char) (paired : Bool) (fuel : Nat) {c : Char} (hq : c ≠ '"')
    (hb : c ≠ '\\') (hc : 32 ≤ c.toNat) (cs : List Char) :
    readString done paired (fuel + 1) (c :: cs) = readString (c :: done) paired fuel cs := by
  rw [readString.eq_def]
  simp only [hq, hb, ↓reduceIte, ne_eq, not_false_eq_true, if_neg (Nat.not_lt.mpr hc)]

theorem readString_short (done : List Char) (paired : Bool) (fuel : Nat) {e c : Char}
    (he : (e, c) ∈ shortEscapes) (cs : List Char) :
    readString done paired (fuel + 1) ('\\' :: e :: cs) = readString (c :: done) paired fuel cs := by
  obtain ⟨hs, hu⟩ := simpleEscape?_of_mem he
  rw [readString.eq_def]
  simp only [Char.reduceEq, ↓reduceIte, ne_eq, not_true_eq_false, hs]

section Units

variable (done : List Char) (paired : Bool) (fuel : Nat) {n : Nat} {u : List Char}

theorem readString_character (h : SpellsUnit n u) (hn : ¬ IsSurrogate n) (cs : List Char) :
    readString done paired (fuel + 1) (u ++ cs) = readString (Char.ofNat n :: done) paired fuel cs := by
  obtain ⟨v, rfl, hv⟩ := readHex_spells h
  simp only [IsSurrogate] at hn
  have hl : isLowSurrogate n = false := by
    simp only [isLowSurrogate, Bool.and_eq_false_imp, decide_eq_true_eq, decide_eq_false_iff_not]
    omega
  have hh : isHighSurrogate n = false := by
    simp only [isHighSurrogate, Bool.and_eq_false_imp, decide_eq_true_eq, decide_eq_false_iff_not]
    omega
  simp [readString, hv, hl, hh]

theorem readString_trailing (h : SpellsUnit n u) (hn : IsTrailing n) (cs : List Char) :
    readString done paired (fuel + 1) (u ++ cs) = readString done false fuel cs := by
  obtain ⟨v, rfl, hv⟩ := readHex_spells h
  simp [readString, hv, (isLowSurrogate_iff n).mpr hn]

variable {m : Nat} {v : List Char}

theorem readString_pair (h : SpellsUnit n u) (hn : IsSurrogate n) (ht : ¬ IsTrailing n)
    (h' : SpellsUnit m v) (hm : IsTrailing m) (cs : List Char) :
    readString done paired (fuel + 1) (u ++ (v ++ cs)) =
      readString (pairChar n m :: done) paired fuel cs := by
  obtain ⟨x, rfl, hx⟩ := readHex_spells h
  obtain ⟨y, rfl, hy⟩ := readHex_spells h'
  have hl : isLowSurrogate n = false := by
    rwa [← Bool.not_eq_true, isLowSurrogate_iff]
  have hh : isHighSurrogate n = true := by
    simp only [IsSurrogate, IsTrailing] at hn ht
    simp only [isHighSurrogate, Bool.and_eq_true, decide_eq_true_eq]
    omega
  simp [readString, hx, hy, hl, hh, (isLowSurrogate_iff m).mpr hm]

/-- A first half that no second half follows is passed over, and what follows is read as it stands.
-/
theorem readString_leading (h : SpellsUnit n u) (hn : IsSurrogate n) (ht : ¬ IsTrailing n)
    {cs t : List Char} {whole : Bool} (hs : SpellsString cs whole t)
    (hp : ∀ m v t', t = v ++ t' → SpellsUnit m v → ¬ IsTrailing m) (rest : List Char) :
    readString done paired (fuel + 1) (u ++ (t ++ '"' :: rest)) =
      readString done false fuel (t ++ '"' :: rest) := by
  obtain ⟨x, rfl, hx⟩ := readHex_spells h
  have hl : isLowSurrogate n = false := by
    rwa [← Bool.not_eq_true, isLowSurrogate_iff]
  have hh : isHighSurrogate n = true := by
    simp only [IsSurrogate, IsTrailing] at hn ht
    simp only [isHighSurrogate, Bool.and_eq_true, decide_eq_true_eq]
    omega
  simp only [List.cons_append, readString, hx, hl, hh, ↓reduceIte, Bool.false_eq_true,
    Char.reduceEq, ne_eq, not_true_eq_false]
  split
  · next ht => simp at ht
  · next ht =>
    cases t with
    | nil => simp at ht
    | cons c t => simp at ht
  · next tail ht =>
    have hu : ∃ x', t = '\\' :: 'u' :: x' := by
      match t, ht with
      | [], ht => simp at ht
      | [c], ht => simp at ht
      | c :: c' :: x', ht =>
        simp only [List.cons_append, List.cons.injEq] at ht
        exact ⟨x', by rw [ht.1, ht.2.1]⟩
    obtain ⟨x', hx'⟩ := hu
    obtain ⟨m, v, t', hv, rfl⟩ := exists_unit_of_escape hs hx'
    obtain ⟨y, rfl, hy⟩ := readHex_spells hv
    simp only [List.cons_append, List.cons.injEq, true_and] at ht
    have hm : isLowSurrogate m = false := by
      rw [← Bool.not_eq_true, isLowSurrogate_iff]
      exact hp m _ t' rfl hv
    simp only [← ht, List.append_assoc, hy, hm, Bool.false_eq_true, ↓reduceIte]
  · rfl

end Units

theorem readString_spells {cs t : List Char} {whole : Bool} (h : SpellsString cs whole t)
    (done : List Char) (paired : Bool) {fuel : Nat} (hf : t.length < fuel) (rest : List Char) :
    readString done paired fuel (t ++ '"' :: rest) =
      .closed (if paired && whole then some (String.ofList (done.reverse ++ cs)) else none) rest := by
  induction h generalizing done paired fuel with
  | nil =>
    obtain ⟨k, rfl⟩ := Nat.exists_eq_add_one_of_ne_zero (Nat.ne_of_gt hf)
    simp [readString]
  | @plain c cs t whole hq hb hc h ih =>
    obtain ⟨k, rfl⟩ := Nat.exists_eq_add_one_of_ne_zero (Nat.ne_of_gt (Nat.zero_lt_of_lt hf))
    rw [List.cons_append, readString_plain done paired k hq hb hc,
      ih (c :: done) paired (by simpa using hf)]
    simp
  | @short c e cs t whole he h ih =>
    obtain ⟨k, rfl⟩ := Nat.exists_eq_add_one_of_ne_zero (Nat.ne_of_gt (Nat.zero_lt_of_lt hf))
    have hk : t.length < k := by
      simp only [List.length_cons] at hf
      omega
    rw [List.cons_append, List.cons_append, readString_short done paired k he,
      ih (c :: done) paired hk]
    simp
  | @unit c cs t u whole hu h ih =>
    obtain ⟨k, rfl⟩ := Nat.exists_eq_add_one_of_ne_zero (Nat.ne_of_gt (Nat.zero_lt_of_lt hf))
    have hk : t.length < k := by
      have := hu.length_eq
      simp only [List.length_append] at hf
      omega
    rw [List.append_assoc, readString_character done paired k hu (not_isSurrogate c),
      Char.ofNat_toNat, ih (c :: done) paired hk]
    simp
  | @pair c cs t u v whole hc hu hv h ih =>
    obtain ⟨k, rfl⟩ := Nat.exists_eq_add_one_of_ne_zero (Nat.ne_of_gt (Nat.zero_lt_of_lt hf))
    have hk : t.length < k := by
      have := hu.length_eq
      simp only [List.length_append] at hf
      omega
    have hbound : c.toNat < 0x110000 := by
      have hv : c.toNat < 0xD800 ∨ 0xDFFF < c.toNat ∧ c.toNat < 0x110000 := c.valid
      omega
    rw [List.append_assoc, List.append_assoc,
      readString_pair done paired k hu ⟨by omega, by omega⟩ (by simp only [IsTrailing]; omega) hv
        ⟨by omega, by omega⟩,
      pairChar_halves hc, ih (c :: done) paired hk]
    simp
  | @half n cs t u whole hn hu hp h ih =>
    obtain ⟨k, rfl⟩ := Nat.exists_eq_add_one_of_ne_zero (Nat.ne_of_gt (Nat.zero_lt_of_lt hf))
    have hk : t.length < k := by
      have := hu.length_eq
      simp only [List.length_append] at hf
      omega
    have hread : readString done paired (k + 1) (u ++ (t ++ '"' :: rest)) =
        readString done false k (t ++ '"' :: rest) := by
      by_cases ht : IsTrailing n
      · exact readString_trailing done paired k hu ht _
      · exact readString_leading done paired k hu hn ht h (hp ht) rest
    rw [List.append_assoc, hread, ih done false hk]
    simp

end Strings

theorem head_numeral {n : Numeral} {t : List Char} (h : SpellsNumeral n t) :
    ∃ c t', t = c :: t' ∧ isSpace c = false ∧ c ≠ ']' := by
  have hdigit : ∀ d : Fin 10, isSpace (digitChar d) = false ∧ digitChar d ≠ ']' := by decide
  cases h with
  | mk negative hw hf he =>
    cases negative with
    | true => exact ⟨_, _, rfl, rfl, by decide⟩
    | false =>
      cases hw with
      | digit d => exact ⟨_, _, rfl, hdigit d⟩
      | digits hd ds => exact ⟨_, _, rfl, hdigit _⟩

section Texts

variable {accepts : Numeral → Bool}

theorem Spells.head {j : Json} {t : List Char} (h : Spells accepts j t) :
    ∃ c t', t = c :: t' ∧ isSpace c = false ∧ c ≠ ']' := by
  cases h with
  | number h hr => exact head_numeral h
  | beyond h hr => exact head_numeral h
  | _ => exact ⟨_, _, rfl, rfl, by decide⟩

theorem SpellsItems.trim {items : List Json} {u : List Char} (h : SpellsItems accepts items u)
    (rest : List Char) : ∃ c t, SpellsItems accepts items (c :: t) ∧ (c :: t).length ≤ u.length ∧ c ≠ ']' ∧
      skipSpaces (u ++ rest) = c :: t ++ rest := by
  have hnil : Spaces [] := nofun
  cases h with
  | @last j w t v hw h hv =>
    obtain ⟨c, t, rfl, hs, hc⟩ := h.head
    refine ⟨c, t ++ v ++ [']'], .last hnil h hv, by simp, hc, ?_⟩
    rw [List.append_assoc, List.append_assoc, List.append_assoc, skipSpaces_append hw,
      List.cons_append, skipSpaces_cons hs]
    simp
  | @cons j items w t v u hw h hv hi =>
    obtain ⟨c, t, rfl, hs, hc⟩ := h.head
    refine ⟨c, t ++ v ++ ',' :: u, .cons hnil h hv hi, by simp, hc, ?_⟩
    rw [List.append_assoc, List.append_assoc, List.append_assoc, skipSpaces_append hw,
      List.cons_append, skipSpaces_cons hs]
    simp

theorem SpellsKey.trim {key : Option String} {k : List Char} (h : SpellsKey key k)
    (rest : List Char) : ∃ t, SpellsKey key ('"' :: t) ∧ ('"' :: t).length ≤ k.length ∧
      skipSpaces (k ++ rest) = '"' :: t ++ rest := by
  have hnil : Spaces [] := nofun
  cases h with
  | @mk key w t v hw h hv =>
    refine ⟨t ++ '"' :: v ++ [':'], .mk hnil h hv, by simp, ?_⟩
    simp only [List.append_assoc, skipSpaces_append hw, List.cons_append]
    exact skipSpaces_cons rfl _
  | @halves cs w t v hw h hv =>
    refine ⟨t ++ '"' :: v ++ [':'], .halves hnil h hv, by simp, ?_⟩
    simp only [List.append_assoc, skipSpaces_append hw, List.cons_append]
    exact skipSpaces_cons rfl _

theorem SpellsKey.length_pos {key : Option String} {k : List Char} (h : SpellsKey key k) :
    3 ≤ k.length := by
  cases h <;> simp only [List.length_append, List.length_cons] <;> omega

theorem SpellsMembers.trim {members : List (String × Json) × Option Obstacle} {u : List Char}
    (h : SpellsMembers accepts members u) (rest : List Char) :
    ∃ t, SpellsMembers accepts members ('"' :: t) ∧
      ('"' :: t).length ≤ u.length ∧ skipSpaces (u ++ rest) = '"' :: t ++ rest := by
  cases h with
  | @last key j k w t v hk hw h hv =>
    obtain ⟨x, hx, hl, hs⟩ := hk.trim (w ++ t ++ v ++ '\x7d' :: rest)
    refine ⟨x ++ w ++ t ++ v ++ ['\x7d'], .last hx hw h hv, ?_, ?_⟩
    · simp only [List.length_append, List.length_cons] at hl ⊢
      omega
    · simpa using hs
  | @cons key j others k w t v u hk hw h hv ho =>
    obtain ⟨x, hx, hl, hs⟩ := hk.trim (w ++ t ++ v ++ ',' :: u ++ rest)
    refine ⟨x ++ w ++ t ++ v ++ ',' :: u, .cons hx hw h hv ho, ?_, ?_⟩
    · simp only [List.length_append, List.length_cons] at hl ⊢
      omega
    · simpa using hs

end Texts

/-- What the reader makes of the texts that some fuel is enough for. -/
structure Reads (fuel : Nat) : Prop where
  value {j : Json} {t : List Char} (h : Spells Numeral.isInRange j t) (hf : 2 * t.length ≤ fuel)
    (w rest : List Char) (hw : Spaces w) (hs : Stops rest) :
    readValue fuel (w ++ (t ++ rest)) = ⟨j, some rest⟩
  items {items : List Json} {u : List Char} (h : SpellsItems Numeral.isInRange items u)
    (hf : 2 * u.length ≤ fuel) (rest : List Char) :
    readItems fuel (u ++ rest) = ⟨(items, none), some rest⟩
  members {members : List (String × Json) × Option Obstacle} {u : List Char}
    (h : SpellsMembers Numeral.isInRange members u) (hf : 2 * u.length ≤ fuel) (rest : List Char) :
    readMembers fuel (u ++ rest) = ⟨members, some rest⟩

namespace Reads

variable {fuel : Nat}

theorem readValue_spaces {w : List Char} (hw : Spaces w) (cs : List Char) :
    readValue (fuel + 1) (w ++ cs) = readValue (fuel + 1) cs := by
  rw [readValue, readValue, skipSpaces_append hw]

theorem readValue_string {cs t : List Char} {whole : Bool} (h : SpellsString cs whole t)
    (rest : List Char) : readValue (fuel + 1) ('"' :: t ++ ['"'] ++ rest) =
      ⟨if whole then .string (String.ofList cs) else .broken .unusable, some rest⟩ := by
  have hlen : t.length < (t ++ '"' :: rest).length + 1 := by
    rw [List.length_append]
    omega
  have hread := readString_spells h [] true hlen rest
  have hcs : '"' :: t ++ ['"'] ++ rest = '"' :: (t ++ '"' :: rest) := by simp
  rw [hcs, readValue, skipSpaces_cons rfl]
  simp only [hread]
  cases whole <;> rfl

theorem value_succ (ih : Reads fuel) {j : Json} {t : List Char} (h : Spells Numeral.isInRange j t)
    (hf : 2 * t.length ≤ fuel + 1) {rest : List Char} (hs : Stops rest) :
    readValue (fuel + 1) (t ++ rest) = ⟨j, some rest⟩ := by
  cases h with
  | null | isTrue | isFalse => rfl
  | number h ha => rw [readValue_numeral fuel h hs, finishNumber, if_pos ha]
  | beyond h ha => rw [readValue_numeral fuel h hs, finishNumber, if_neg (by simp [ha])]
  | string h => rw [readValue_string h, if_pos rfl, String.ofList_toList]
  | halves h => rw [readValue_string h, if_neg (by decide)]
  | @emptyArray w hw =>
    rw [List.cons_append, List.cons_append, List.append_assoc, readValue, skipSpaces_cons rfl]
    simp only [skipSpaces_append hw]
    rfl
  | @array items t h =>
    rw [List.length_cons] at hf
    obtain ⟨c, u, hu, hle, hc, htrim⟩ := h.trim rest
    have hread := ih.items hu (by omega) rest
    rw [List.cons_append, readValue, skipSpaces_cons rfl]
    simp only [htrim, List.cons_append] at hread ⊢
    split
    · next hb => exact absurd (List.cons.inj hb).1 hc
    · next hb => cases hb
    · rw [hread]
      rfl
  | @emptyObject w hw =>
    rw [List.cons_append, List.cons_append, List.append_assoc, readValue, skipSpaces_cons rfl]
    simp only [skipSpaces_append hw]
    rfl
  | @object members t h =>
    rw [List.length_cons] at hf
    obtain ⟨u, hu, hle, htrim⟩ := h.trim rest
    have hread := ih.members hu (by omega) rest
    rw [List.cons_append, readValue, skipSpaces_cons rfl]
    simp only [htrim, List.cons_append] at hread ⊢
    simp [hread]

theorem items_succ (ih : Reads fuel) {items : List Json} {u : List Char}
    (h : SpellsItems Numeral.isInRange items u) (hf : 2 * u.length ≤ fuel + 1) (rest : List Char) :
    readItems (fuel + 1) (u ++ rest) = ⟨(items, none), some rest⟩ := by
  cases h with
  | @last j w t v hw h hv =>
    simp only [List.length_append, List.length_cons] at hf
    have hitem := ih.value h (by omega) w (v ++ ']' :: rest) hw (stops_spaces hv (by simp) rest)
    have hu : w ++ t ++ v ++ [']'] ++ rest = w ++ (t ++ (v ++ ']' :: rest)) := by simp
    rw [hu, readItems]
    simp only [hitem, skipSpaces_append hv]
    rfl
  | @cons j items w t v u hw h hv hi =>
    simp only [List.length_append, List.length_cons] at hf
    have hitem := ih.value h (by omega) w (v ++ ',' :: (u ++ rest)) hw
      (stops_spaces hv (by simp) _)
    have hu : w ++ t ++ v ++ ',' :: u ++ rest = w ++ (t ++ (v ++ ',' :: (u ++ rest))) := by simp
    rw [hu, readItems]
    simp only [hitem, skipSpaces_append hv, skipSpaces_cons (c := ',') rfl,
      ih.items hi (by omega) rest]

theorem readMembers_key {key : Option String} {k : List Char} (h : SpellsKey key k) {cs : List Char}
    {j : Json} {rest : List (String × Json) × Option Obstacle} {after : Option (List Char)}
    (hj : j.skipFault = none) (hrest : skipMembers rest.1 rest.2 = none)
    (hread : ∀ v, Spaces v → readMember fuel (v ++ ':' :: cs) = ⟨(j, rest.1, rest.2), after⟩) :
    readMembers (fuel + 1) (k ++ cs) = ⟨withKey key j rest, after⟩ := by
  cases h with
  | @mk key w t v hw h hv =>
    have hlen : t.length < (t ++ '"' :: (v ++ ':' :: cs)).length + 1 := by
      rw [List.length_append]
      omega
    have hstring := readString_spells h [] true hlen (v ++ ':' :: cs)
    have hcs : w ++ '"' :: t ++ '"' :: v ++ [':'] ++ cs =
        w ++ '"' :: (t ++ '"' :: (v ++ ':' :: cs)) := by simp
    rw [hcs, readMembers, skipSpaces_append hw, skipSpaces_cons rfl]
    simp only [hstring, hread v hv]
    simp [withKey]
  | @halves chars w t v hw h hv =>
    have hlen : t.length < (t ++ '"' :: (v ++ ':' :: cs)).length + 1 := by
      rw [List.length_append]
      omega
    have hstring := readString_spells h [] true hlen (v ++ ':' :: cs)
    have hcs : w ++ '"' :: t ++ '"' :: v ++ [':'] ++ cs =
        w ++ '"' :: (t ++ '"' :: (v ++ ':' :: cs)) := by simp
    rw [hcs, readMembers, skipSpaces_append hw, skipSpaces_cons rfl]
    simp only [hstring, hread v hv]
    simp [withKey, hj, hrest, Obstacle.unusable]

theorem members_succ (ih : Reads fuel) {members : List (String × Json) × Option Obstacle}
    {u : List Char} (h : SpellsMembers Numeral.isInRange members u) (hf : 2 * u.length ≤ fuel + 2)
    (rest : List Char) : readMembers (fuel + 2) (u ++ rest) = ⟨members, some rest⟩ := by
  cases h with
  | @last key j k w t v hk hw h hv =>
    have hlen := hk.length_pos
    simp only [List.length_append, List.length_cons] at hf
    have hvalue := ih.value h (by omega) w (v ++ '\x7d' :: rest) hw
      (stops_spaces hv (by simp) rest)
    have hu : k ++ w ++ t ++ v ++ ['\x7d'] ++ rest =
        k ++ (w ++ (t ++ (v ++ '\x7d' :: rest))) := by simp
    rw [hu]
    refine readMembers_key hk h.skipFault rfl fun x hx ↦ ?_
    rw [readMember, skipSpaces_append hx, skipSpaces_cons rfl]
    simp only [hvalue, skipSpaces_append hv]
    rfl
  | @cons key j others k w t v u hk hw h hv ho =>
    have hlen := hk.length_pos
    simp only [List.length_append, List.length_cons] at hf
    have hvalue := ih.value h (by omega) w (v ++ ',' :: (u ++ rest)) hw
      (stops_spaces hv (by simp) _)
    have hu : k ++ w ++ t ++ v ++ ',' :: u ++ rest =
        k ++ (w ++ (t ++ (v ++ ',' :: (u ++ rest)))) := by simp
    rw [hu]
    refine readMembers_key hk h.skipFault ho.skipMembers fun x hx ↦ ?_
    rw [readMember, skipSpaces_append hx, skipSpaces_cons rfl]
    simp only [hvalue, skipSpaces_append hv, skipSpaces_cons (c := ',') rfl,
      ih.members ho (by omega) rest]

theorem of_lt_two (hf : fuel < 2) : Reads fuel where
  value h hl _ _ _ _ := by
    obtain ⟨c, t, rfl, -⟩ := h.head
    rw [List.length_cons] at hl
    omega
  items h hl _ := by
    cases h <;> simp only [List.length_append, List.length_cons] at hl <;> omega
  members h hl _ := by
    cases h <;> simp only [List.length_append, List.length_cons] at hl <;> omega

end Reads

theorem reads (fuel : Nat) : Reads fuel := by
  induction fuel using Nat.strong_induction_on with
  | _ fuel ih =>
    match fuel, ih with
    | 0, _ => exact .of_lt_two (by omega)
    | 1, _ => exact .of_lt_two (by omega)
    | fuel + 2, ih =>
      have hm := ih fuel (by omega)
      have hv := ih (fuel + 1) (by omega)
      refine ⟨fun h hf w rest hw hs ↦ ?_, fun h hf ↦ hv.items_succ h hf,
        fun h hf ↦ hm.members_succ h hf⟩
      rw [Reads.readValue_spaces hw, hv.value_succ h hf hs]

/-- A text is read as the value that it writes, and leaves nothing behind. -/
theorem read_of_writes {j : Json} {s : String} (h : Writes Numeral.isInRange j s) :
    read s = ⟨j, false⟩ := by
  obtain @⟨w, t, v, hw, h, hv⟩ := h
  have hread := (reads (2 * (w ++ t ++ v).length + 2)).value h
    (by simp only [List.length_append]; omega) w v hw (stops_of_spaces hv)
  have hend : skipSpaces v = [] := by
    have := skipSpaces_append hv []
    rwa [List.append_nil] at this
  rw [List.append_assoc] at hread ⊢
  simp only [read, String.toList_ofList, hread, Option.any_some, hend]
  rfl

end Json

end Diagram

import Diagram.Color.Mixing
import Mathlib.Data.List.TakeWhile

namespace Diagram

theorem trimBlanks_eq {cs : List Char} (h : ∀ c ∈ cs, isBlank c = false) : trimBlanks cs = cs := by
  have hdrop : ∀ cs : List Char, (∀ c ∈ cs, isBlank c = false) → cs.dropWhile isBlank = cs := by
    intro cs h
    cases cs with
    | nil => rfl
    | cons c cs => rw [List.dropWhile_cons_of_neg (by simp [h c])]
  rw [trimBlanks, hdrop cs h, hdrop cs.reverse (by simpa using h), List.reverse_reverse]

theorem trimBlanks_append {before cs after : List Char} (hbefore : ∀ c ∈ before, isBlank c = true)
    (hcs : ∀ c ∈ cs, isBlank c = false) (hafter : ∀ c ∈ after, isBlank c = true) :
    trimBlanks (before ++ cs ++ after) = cs := by
  have hfront : (before ++ cs ++ after).dropWhile isBlank = (cs ++ after).dropWhile isBlank := by
    rw [List.append_assoc, List.dropWhile_append_of_pos hbefore]
  cases cs with
  | nil =>
    rw [trimBlanks, hfront, List.nil_append, List.dropWhile_eq_nil_iff.mpr hafter]
    rfl
  | cons c cs =>
    have hback : (c :: cs ++ after).dropWhile isBlank = c :: cs ++ after := by
      rw [List.cons_append, List.dropWhile_cons_of_neg (by simp [hcs c])]
    have hrest : trimBlanks (c :: cs) = c :: cs := trimBlanks_eq hcs
    rw [trimBlanks, hfront, hback, List.reverse_append,
      List.dropWhile_append_of_pos fun d hd ↦ hafter d (List.mem_reverse.mp hd)]
    rwa [trimBlanks, List.dropWhile_cons_of_neg (by simp [hcs c])] at hrest

theorem trimBlanks_split (cs : List Char) : ∃ before after, cs = before ++ trimBlanks cs ++ after ∧
    (∀ c ∈ before, isBlank c = true) ∧ ∀ c ∈ after, isBlank c = true := by
  have hrest := List.takeWhile_append_dropWhile (p := isBlank)
    (l := (cs.dropWhile isBlank).reverse)
  refine ⟨cs.takeWhile isBlank, ((cs.dropWhile isBlank).reverse.takeWhile isBlank).reverse, ?_,
    fun c hc ↦ List.mem_takeWhile_imp hc,
    fun c hc ↦ List.mem_takeWhile_imp (List.mem_reverse.mp hc)⟩
  rw [trimBlanks, List.append_assoc, ← List.reverse_append, hrest, List.reverse_reverse,
    List.takeWhile_append_dropWhile]

namespace Color

def digitList : List Char :=
  ['0', '1', '2', '3', '4', '5', '6', '7', '8', '9', 'a', 'b', 'c', 'd', 'e', 'f']

def IsDigit (c : Char) : Prop := c ∈ digitList ++ ['A', 'B', 'C', 'D', 'E', 'F']

instance : DecidablePred IsDigit := fun c ↦ inferInstanceAs (Decidable (c ∈ _))

def digitValue (c : Char) : Nat := digitList.idxOf c.toLower

theorem IsDigit.spec {c : Char} (h : IsDigit c) :
    hexDigit? c = some (digitValue c) ∧ digitValue c < 16 ∧ isBlank c = false := by
  have hall : (digitList ++ ['A', 'B', 'C', 'D', 'E', 'F']).all fun c ↦
      hexDigit? c = some (digitValue c) ∧ digitValue c < 16 ∧ isBlank c = false := by decide
  exact of_decide_eq_true (List.all_eq_true.mp hall c h)

theorem isDigit_of_all {digits : List Char} (h : digits.all fun d ↦ IsDigit d) :
    ∀ d ∈ digits, IsDigit d := fun d hd ↦ of_decide_eq_true (List.all_eq_true.mp h d hd)

theorem isDigit_of_hexDigit {c : Char} {n : Nat} (h : hexDigit? c = some n) : IsDigit c := by
  have hrange : ∀ k < 103, 48 ≤ k ∧ k ≤ 57 ∨ 97 ≤ k ∧ k ≤ 102 ∨ 65 ≤ k ∧ k ≤ 70 →
      IsDigit (Char.ofNat k) := by decide
  have hc : 48 ≤ c.toNat ∧ c.toNat ≤ 57 ∨ 97 ≤ c.toNat ∧ c.toNat ≤ 102 ∨
      65 ≤ c.toNat ∧ c.toNat ≤ 70 := by
    unfold hexDigit? at h
    split at h
    · next hd => exact .inl hd
    · split at h
      · next hd => exact .inr (.inl hd)
      · split at h
        · next hd => exact .inr (.inr hd)
        · cases h
  have := hrange c.toNat (by omega) hc
  rwa [Char.ofNat_toNat] at this

/-- The digits between the blanks of a text, behind a mark or without one. -/
structure Writes (s : String) (digits : List Char) : Prop where
  spelled : ∃ before mark after, s.toList = before ++ (mark ++ digits) ++ after ∧
    (∀ c ∈ before, isBlank c = true) ∧ (mark = [] ∨ mark = ['#']) ∧
    ∀ c ∈ after, isBlank c = true
  isDigit : ∀ d ∈ digits, IsDigit d
  length : digits.length ∈ [3, 4, 6, 8]

theorem dropMark_append {mark digits : List Char} (hm : mark = [] ∨ mark = ['#'])
    (hd : ∀ d ∈ digits, IsDigit d) : dropMark (mark ++ digits) = digits := by
  obtain rfl | rfl := hm
  · cases digits with
    | nil => rfl
    | cons d digits =>
      have hne : d ≠ '#' := by
        rintro rfl
        exact absurd (hd '#' List.mem_cons_self) (by decide)
      rw [List.nil_append, dropMark]
      simpa using hne
  · rfl

theorem dropMark_split (cs : List Char) :
    ∃ mark, (mark = [] ∨ mark = ['#']) ∧ cs = mark ++ dropMark cs := by
  unfold dropMark
  split
  · exact ⟨['#'], .inr rfl, rfl⟩
  · exact ⟨[], .inl rfl, rfl⟩

theorem mapM_hexDigit {digits : List Char} (h : ∀ d ∈ digits, IsDigit d) :
    digits.mapM hexDigit? = some (digits.map digitValue) := by
  induction digits with
  | nil => rfl
  | cons d digits ih =>
    obtain ⟨hd, hrest⟩ := List.forall_mem_cons.mp h
    rw [List.mapM_cons, hd.spec.1, ih hrest]
    rfl

theorem exists_ofNibbles (ns : List UInt8) :
    (∃ c, ofNibbles? ns = some c) ↔ ns.length ∈ [3, 4, 6, 8] := by
  rw [← Option.isSome_iff_exists]
  match ns with
  | [] | [_] | [_, _] | [_, _, _] | [_, _, _, _] | [_, _, _, _, _] | [_, _, _, _, _, _]
  | [_, _, _, _, _, _, _] | [_, _, _, _, _, _, _, _] => simp [ofNibbles?]
  | _ :: _ :: _ :: _ :: _ :: _ :: _ :: _ :: _ :: _ => simp [ofNibbles?]

def ofDigits? (digits : List Char) : Option Color :=
  ofNibbles? (digits.map fun d ↦ .ofNat (digitValue d))

end Color

/-- What a library of colors is documented to do: to take digits for the color that they stand for,
and to mix colors so that their alpha stays, and all of an opaque one. -/
structure ColorMixing.Documented (mixing : ColorMixing) : Prop where
  ofHex?_eq {digits : List Char} (h : ∀ d ∈ digits, Color.IsDigit d) :
    mixing.ofHex? (.ofList digits) = (Color.ofDigits? digits).map mixing.mix
  mix_opaque {c : Color} (h : c.alpha = 255) : mixing.mix c = c
  mix_alpha (c : Color) : (mixing.mix c).alpha = c.alpha

theorem ColorMixing.standard_documented : standard.Documented where
  ofHex?_eq h := by
    simp only [standard, String.toList_ofList, Color.mapM_hexDigit h, Color.ofDigits?,
      Option.bind_eq_bind, Option.bind_some, List.map_map]
    rfl
  mix_opaque h := if_pos h
  mix_alpha c := by
    simp only [standard, Color.mixed]
    split
    · rfl
    · split
      · next h => exact h.symm
      · rfl

namespace Color

section Reading

variable {mixing : ColorMixing}

theorem ofMixed_alpha (c : Color) : (ofMixed mixing c).alpha = c.alpha := by
  unfold ofMixed
  split
  · next h => exact (beq_iff_eq.mp h).symm
  · rfl

theorem ofMixed_mix (hm : mixing.Documented) {c : Color} (h : c.alpha = 255) :
    ofMixed mixing (mixing.mix c) = c := by
  have hopaque : c.isOpaque = true := beq_iff_eq.mpr h
  rw [hm.mix_opaque h, ofMixed, if_pos hopaque, opaqueRgb, ← h]

theorem ofText_digits (hm : mixing.Documented) {s : String}
    (h : ∀ d ∈ dropMark (trimBlanks s.toList), IsDigit d) :
    ofText mixing s = match ofDigits? (dropMark (trimBlanks s.toList)) with
      | some c => .ok (ofMixed mixing (mixing.mix c))
      | none => .error ⟨s⟩ := by
  have hall : (dropMark (trimBlanks s.toList)).all isHexDigit = true :=
    List.all_eq_true.mpr fun d hd ↦ Option.isSome_iff_exists.mpr ⟨_, (h d hd).spec.1⟩
  rw [ofText, if_pos hall, hm.ofHex?_eq h]
  cases ofDigits? (dropMark (trimBlanks s.toList)) <;> rfl

theorem Writes.read (hm : mixing.Documented) {s : String} {digits : List Char} (h : Writes s digits) :
    ∃ c, ofDigits? digits = some c ∧ ofText mixing s = .ok (ofMixed mixing (mixing.mix c)) := by
  obtain ⟨before, mark, after, hs, hbefore, hmark, hafter⟩ := h.spelled
  have hclean : ∀ c ∈ mark ++ digits, isBlank c = false := by
    intro c hc
    obtain hc | hc := List.mem_append.mp hc
    · obtain rfl | rfl := hmark
      · cases hc
      · cases List.mem_singleton.mp hc
        decide
    · exact (h.isDigit c hc).spec.2.2
  have hdigits : dropMark (trimBlanks s.toList) = digits := by
    rw [hs, trimBlanks_append hbefore hclean hafter, dropMark_append hmark h.isDigit]
  obtain ⟨c, hc⟩ := (exists_ofNibbles (digits.map fun d ↦ .ofNat (digitValue d))).mpr
    (by rw [List.length_map]; exact h.length)
  have hc : ofDigits? digits = some c := hc
  refine ⟨c, hc, ?_⟩
  rw [ofText_digits hm (hdigits ▸ h.isDigit), hdigits, hc]

theorem writes_or_error (hm : mixing.Documented) (s : String) :
    (∃ digits, Writes s digits) ∨ ofText mixing s = .error ⟨s⟩ := by
  cases hall : (dropMark (trimBlanks s.toList)).all isHexDigit with
  | false =>
    right
    rw [ofText, if_neg (by simp [hall])]
  | true =>
    have hdigit : ∀ d ∈ dropMark (trimBlanks s.toList), IsDigit d := fun d hd ↦ by
      obtain ⟨n, hn⟩ := Option.isSome_iff_exists.mp (List.all_eq_true.mp hall d hd)
      exact isDigit_of_hexDigit hn
    rw [ofText_digits hm hdigit]
    cases hc : ofDigits? (dropMark (trimBlanks s.toList)) with
    | none => exact .inr rfl
    | some c =>
      left
      obtain ⟨before, after, hs, hbefore, hafter⟩ := trimBlanks_split s.toList
      obtain ⟨mark, hmark, htrim⟩ := dropMark_split (trimBlanks s.toList)
      have hlength := (exists_ofNibbles _).mp ⟨c, hc⟩
      rw [List.length_map] at hlength
      refine ⟨dropMark (trimBlanks s.toList), ⟨before, mark, after, ?_, hbefore, hmark, hafter⟩,
        hdigit, hlength⟩
      rw [← htrim]
      exact hs

end Reading

/-- Digits that stand for the same color. -/
inductive Spelling : List Char → List Char → Prop
  | case {digits digits' : List Char} (h : digits'.map Char.toLower = digits.map Char.toLower) :
      Spelling digits digits'
  | doubled (digits : List Char) : Spelling digits (digits.flatMap fun d ↦ [d, d])
  | full {digits : List Char} {d d' : Char} (h : digits.length = 6) (hd : d.toLower = 'f')
      (hd' : d'.toLower = 'f') : Spelling digits (digits ++ [d, d'])

theorem ofDigits?_case {digits digits' : List Char}
    (h : digits'.map Char.toLower = digits.map Char.toLower) :
    ofDigits? digits' = ofDigits? digits := by
  have hvalue (ds : List Char) : (ds.map fun d ↦ UInt8.ofNat (digitValue d)) =
      (ds.map Char.toLower).map fun d ↦ .ofNat (digitList.idxOf d) := by
    rw [List.map_map]
    rfl
  rw [ofDigits?, ofDigits?, hvalue, hvalue, h]

theorem seventeen_mul (n : UInt8) : 17 * n = 16 * n + n := by grind

theorem ofDigits?_doubled {digits : List Char} (h : digits.length = 3 ∨ digits.length = 4) :
    ofDigits? (digits.flatMap fun d ↦ [d, d]) = ofDigits? digits := by
  match digits, h with
  | [r, g, b], _ => simp only [ofDigits?, List.flatMap_cons, List.flatMap_nil, List.cons_append,
      List.nil_append, List.map_cons, List.map_nil, ofNibbles?, seventeen_mul]
  | [r, g, b, a], _ => simp only [ofDigits?, List.flatMap_cons, List.flatMap_nil, List.cons_append,
      List.nil_append, List.map_cons, List.map_nil, ofNibbles?, seventeen_mul]

theorem ofDigits?_full {digits : List Char} {d d' : Char} (h : digits.length = 6)
    (hd : d.toLower = 'f') (hd' : d'.toLower = 'f') :
    ofDigits? (digits ++ [d, d']) = ofDigits? digits := by
  have hvalue {c : Char} (hc : c.toLower = 'f') : digitValue c = 15 := by
    rw [digitValue, hc]
    decide
  match digits, h with
  | [r, r', g, g', b, b'], _ =>
    simp only [ofDigits?, List.cons_append, List.nil_append, List.map_cons, List.map_nil, ofNibbles?,
      hvalue hd, hvalue hd']
    rfl

theorem Spelling.ofDigits?_eq {digits digits' : List Char} (h : Spelling digits digits')
    (hd : digits.length ∈ [3, 4, 6, 8]) (hd' : digits'.length ∈ [3, 4, 6, 8]) :
    ofDigits? digits' = ofDigits? digits := by
  cases h with
  | case h => exact ofDigits?_case h
  | doubled =>
    have htwice : (digits.flatMap fun d ↦ [d, d]).length = digits.length * 2 := by
      simp [List.length_flatMap, List.map_const']
    refine ofDigits?_doubled ?_
    rw [htwice] at hd'
    simp only [List.mem_cons, List.not_mem_nil, or_false] at hd hd'
    omega
  | full h hf hf' => exact ofDigits?_full h hf hf'

theorem Writes.ofText_eq {mixing : ColorMixing} (hm : mixing.Documented) {s t : String}
    {digits digits' : List Char} (hs : Writes s digits) (ht : Writes t digits')
    (h : ofDigits? digits' = ofDigits? digits) : ofText mixing t = ofText mixing s := by
  obtain ⟨c, hc, hread⟩ := hs.read hm
  obtain ⟨c', hc', hread'⟩ := ht.read hm
  rw [h, hc] at hc'
  cases hc'
  rw [hread, hread']

/-- How opaque digits say that a color is. -/
def writtenAlpha : List Char → Nat
  | [_, _, _, a] => 16 * digitValue a + digitValue a
  | [_, _, _, _, _, _, a, a'] => 16 * digitValue a + digitValue a'
  | _ => 255

theorem toNat_digits {d d' : Char} (hd : IsDigit d) (hd' : IsDigit d') :
    (16 * UInt8.ofNat (digitValue d) + UInt8.ofNat (digitValue d')).toNat =
      16 * digitValue d + digitValue d' := by
  have hlt := hd.spec.2.1
  have hlt' := hd'.spec.2.1
  have h : (16 : UInt8) = .ofNat 16 := rfl
  rw [h, ← UInt8.ofNat_mul, ← UInt8.ofNat_add, UInt8.toNat_ofNat']
  omega

theorem alpha_ofDigits {digits : List Char} {c : Color} (hd : ∀ d ∈ digits, IsDigit d)
    (h : ofDigits? digits = some c) : c.alpha.toNat = writtenAlpha digits := by
  match digits with
  | [_, _, _] | [_, _, _, _, _, _] =>
    cases h
    rfl
  | [_, _, _, a] =>
    cases h
    have ha : IsDigit a := hd a (by simp)
    exact (congrArg UInt8.toNat (seventeen_mul _)).trans (toNat_digits ha ha)
  | [_, _, _, _, _, _, a, a'] =>
    cases h
    have ha : IsDigit a := hd a (by simp)
    have ha' : IsDigit a' := hd a' (by simp)
    exact toNat_digits ha ha'
  | [] | [_] | [_, _] | [_, _, _, _, _] | [_, _, _, _, _, _, _]
  | _ :: _ :: _ :: _ :: _ :: _ :: _ :: _ :: _ :: _ => cases h

theorem Writes.alpha_eq {mixing : ColorMixing} (hm : mixing.Documented) {s : String}
    {digits : List Char} {c : Color} (hs : Writes s digits) (h : ofText mixing s = .ok c) :
    c.alpha.toNat = writtenAlpha digits := by
  obtain ⟨c', hc', hread⟩ := hs.read hm
  rw [hread] at h
  cases h
  rw [ofMixed_alpha, hm.mix_alpha, alpha_ofDigits hs.isDigit hc']

theorem hexDigits_spec (n : UInt8) : ∃ p q, hexDigits n = [p, q] ∧
    hexDigit? p = some (n.toNat / 16) ∧ hexDigit? q = some (n.toNat % 16) := by
  have hdigit : ∀ k : Fin 16, hexDigit? k.val.digitChar.toUpper = some k.val := by decide
  have hlt := n.toNat_lt
  exact ⟨_, _, rfl, hdigit ⟨n.toNat / 16, by omega⟩, hdigit ⟨n.toNat % 16, by omega⟩⟩

theorem halves_sum (n : UInt8) : 16 * UInt8.ofNat (n.toNat / 16) + UInt8.ofNat (n.toNat % 16) = n := by
  have h : (16 : UInt8) = .ofNat 16 := rfl
  rw [h, ← UInt8.ofNat_mul, ← UInt8.ofNat_add, Nat.div_add_mod, UInt8.ofNat_toNat]

theorem writes_text {c : Color} (h : c.alpha = 255) : ∃ digits, c.text.toList = '#' :: digits ∧
    Writes c.text digits ∧ ofDigits? digits = some c := by
  obtain ⟨p, q, hr, hp, hq⟩ := hexDigits_spec c.red
  obtain ⟨s, t, hg, hs, ht⟩ := hexDigits_spec c.green
  obtain ⟨u, v, hb, hu, hv⟩ := hexDigits_spec c.blue
  have htext : c.text.toList = ['#', p, q, s, t, u, v] := by
    rw [text, String.toList_ofList, hr, hg, hb, if_pos h]
    rfl
  have hdigit : ∀ d ∈ [p, q, s, t, u, v], IsDigit d := by
    simp only [List.forall_mem_cons, List.not_mem_nil, false_imp_iff, implies_true, and_true]
    exact ⟨isDigit_of_hexDigit hp, isDigit_of_hexDigit hq, isDigit_of_hexDigit hs, isDigit_of_hexDigit ht,
      isDigit_of_hexDigit hu, isDigit_of_hexDigit hv⟩
  have hvalue {d : Char} {n : Nat} (hd : hexDigit? d = some n) : digitValue d = n :=
    Option.some.inj ((isDigit_of_hexDigit hd).spec.1.symm.trans hd)
  refine ⟨_, htext, ⟨⟨[], ['#'], [], by simpa using htext, nofun, .inr rfl, nofun⟩, hdigit,
    by simp⟩, ?_⟩
  simp only [ofDigits?, List.map_cons, List.map_nil, hvalue hp, hvalue hq, hvalue hs, hvalue ht,
    hvalue hu, hvalue hv, ofNibbles?, halves_sum]
  rw [opaqueRgb, ← h]

theorem ofText_text {mixing : ColorMixing} (hm : mixing.Documented) {c : Color} (h : c.alpha = 255) :
    ofText mixing c.text = .ok c := by
  obtain ⟨digits, -, hwrites, hdigits⟩ := writes_text h
  obtain ⟨c', hc', hread⟩ := hwrites.read hm
  rw [hdigits] at hc'
  cases hc'
  rw [hread, ofMixed_mix hm h]

theorem ofText_around {mixing : ColorMixing} (hm : mixing.Documented) {c : Color} (h : c.alpha = 255)
    {before after : List Char} (hbefore : ∀ c ∈ before, isBlank c = true)
    (hafter : ∀ c ∈ after, isBlank c = true) :
    ofText mixing (.ofList (before ++ c.text.toList ++ after)) = .ok c ∧
      ofText mixing (.ofList (before ++ c.text.toList.tail ++ after)) = .ok c := by
  obtain ⟨digits, htext, hplain, -⟩ := writes_text h
  have haround (mark : List Char) (hmark : mark = [] ∨ mark = ['#']) :
      ofText mixing (.ofList (before ++ (mark ++ digits) ++ after)) = .ok c := by
    have hwrites : Writes (.ofList (before ++ (mark ++ digits) ++ after)) digits :=
      ⟨⟨before, mark, after, String.toList_ofList, hbefore, hmark, hafter⟩, hplain.isDigit,
        hplain.length⟩
    rw [hplain.ofText_eq hm hwrites rfl, ofText_text hm h]
  rw [htext, List.tail_cons]
  exact ⟨haround ['#'] (.inr rfl), haround [] (.inl rfl)⟩

/-- With a library of colors that does as it is documented to, a text is a color if and only if it
writes three, four, six or eight digits. Which of its spellings the digits have does not matter, and
neither do the blanks and the mark. -/
theorem ofText_grammar {mixing : ColorMixing} (hm : mixing.Documented) (s : String) :
    ((∃ c, ofText mixing s = .ok c) ↔ ∃ digits, Writes s digits) ∧
    ((¬ ∃ digits, Writes s digits) → ofText mixing s = .error ⟨s⟩) ∧
    (∀ digits, Writes s digits →
      (∀ t digits', Writes t digits' → Spelling digits digits' → ofText mixing t = ofText mixing s) ∧
      ∀ c, ofText mixing s = .ok c → c.alpha.toNat = writtenAlpha digits) ∧
    ∀ c : Color, c.alpha = 255 → ∀ before after : List Char,
      (∀ b ∈ before, isBlank b = true) → (∀ b ∈ after, isBlank b = true) →
      ofText mixing (.ofList (before ++ c.text.toList ++ after)) = .ok c ∧
        ofText mixing (.ofList (before ++ c.text.toList.tail ++ after)) = .ok c := by
  have herror : (¬ ∃ digits, Writes s digits) → ofText mixing s = .error ⟨s⟩ :=
    (writes_or_error hm s).resolve_left
  refine ⟨⟨?_, ?_⟩, herror, fun digits hs ↦ ⟨fun t digits' ht hsame ↦ ?_, fun c hc ↦ ?_⟩,
    fun c hc before after ↦ ofText_around hm hc⟩
  · rintro ⟨c, hc⟩
    by_contra hnone
    rw [herror hnone] at hc
    cases hc
  · rintro ⟨digits, hs⟩
    obtain ⟨c, -, hread⟩ := hs.read hm
    exact ⟨_, hread⟩
  · exact hs.ofText_eq hm ht (hsame.ofDigits?_eq hs.length ht.length)
  · exact hs.alpha_eq hm hc

theorem ofText_grammar_short :
    ColorMixing.standard.Documented ∧ ofText .standard "ff000088" = ofText .standard " #f008\t" ∧
      (∃ c, ofText .standard " #f008\t" = .ok c ∧ c.alpha.toNat = 136) ∧
      ofText .standard "+ff" = .error ⟨"+ff"⟩ ∧
      ofText .standard " #FFFF00 " = .ok (opaqueRgb 255 255 0) := by
  have hm := ColorMixing.standard_documented
  have hshort : Writes " #f008\t" ['f', '0', '0', '8'] :=
    ⟨⟨[' '], ['#'], ['\t'], rfl, List.all_eq_true.mp rfl, .inr rfl, List.all_eq_true.mp rfl⟩,
      isDigit_of_all rfl, by decide⟩
  have hlong : Writes "ff000088" ['f', 'f', '0', '0', '0', '0', '8', '8'] :=
    ⟨⟨[], [], [], rfl, nofun, .inl rfl, nofun⟩, isDigit_of_all rfl, by decide⟩
  have hblank : ∀ c ∈ [' '], isBlank c = true := List.all_eq_true.mp rfl
  obtain ⟨hread, -, hwritten, -⟩ := ofText_grammar hm " #f008\t"
  obtain ⟨c, hc⟩ := hread.mpr ⟨_, hshort⟩
  obtain ⟨hspelling, halpha⟩ := hwritten _ hshort
  obtain ⟨hsigned, herror, -, hreadback⟩ := ofText_grammar hm "+ff"
  refine ⟨hm, hspelling _ _ hlong (.doubled _), ⟨c, hc, halpha c hc⟩, herror fun h ↦ ?_,
    (hreadback (opaqueRgb 255 255 0) rfl [' '] [' '] hblank hblank).1⟩
  obtain ⟨c, hc⟩ := hsigned.mpr h
  cases hc

end Color

end Diagram

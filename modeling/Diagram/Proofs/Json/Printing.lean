import Diagram.Json.Printer
import Diagram.Proofs.Json.Grammar

namespace Diagram

theorem ofDigits_concat (ds : List (Fin 10)) (d : Fin 10) :
    ofDigits (ds ++ [d]) = 10 * ofDigits ds + d.val := by
  simp [ofDigits]

theorem digitChar_ofNat {n : Nat} (hn : n < 10) : digitChar (Fin.ofNat 10 n) = n.digitChar := by
  have hall : ∀ d : Fin 10, digitChar d = d.val.digitChar := by decide
  rw [hall, Fin.val_ofNat, Nat.mod_eq_of_lt hn]

theorem exists_digits (n : Nat) : ∃ d ds, (toString n).toList = (d :: ds).map digitChar ∧
    ofDigits (d :: ds) = n ∧ (d = 0 → ds = []) := by
  rw [Nat.toString_eq_ofList_toDigits, String.toList_ofList]
  induction n using Nat.strongRecOn with
  | ind n ih =>
    by_cases hn : n < 10
    · refine ⟨Fin.ofNat 10 n, [], ?_, ?_, fun _ ↦ rfl⟩
      · rw [Nat.toDigits_of_lt_base hn, List.map_singleton, digitChar_ofNat hn]
      · simp [ofDigits, Nat.mod_eq_of_lt hn]
    · obtain ⟨d, ds, hds, hval, hzero⟩ := ih (n / 10) (by omega)
      have hlast : n % 10 < 10 := Nat.mod_lt n (by omega)
      refine ⟨d, ds ++ [Fin.ofNat 10 (n % 10)], ?_, ?_, fun hd ↦ ?_⟩
      · rw [Nat.toDigits_of_base_le (by omega) (by omega), hds, ← digitChar_ofNat hlast,
          ← List.cons_append, List.map_append, List.map_singleton]
      · rw [← List.cons_append, ofDigits_concat, hval, Fin.val_ofNat, Nat.mod_eq_of_lt hlast]
        omega
      · rw [hd, hzero hd] at hval
        simp [ofDigits] at hval
        omega

theorem spells_whole (n : Nat) : SpellsWhole n (toString n).toList := by
  obtain ⟨d, ds, hds, hval, hzero⟩ := exists_digits n
  rw [hds, ← hval]
  by_cases hd : d = 0
  · subst hd
    rw [hzero rfl]
    exact .digit 0
  · exact .digits hd ds

theorem spells_exponent (plus : Bool) (e : Int) :
    SpellsExponent (some e) (Numeral.exponentText plus e).toList := by
  obtain ⟨d, ds, hds, hval, -⟩ := exists_digits e.natAbs
  have htext : (toString e).toList = (if e < 0 then ['-'] else []) ++ (d :: ds).map digitChar := by
    rw [← hds]
    cases e with
    | ofNat n => rw [if_neg (by simp)]; rfl
    | negSucc n =>
      have hneg : toString (Int.negSucc n) = "-" ++ toString (Int.negSucc n).natAbs := rfl
      rw [if_pos (Int.negSucc_lt_zero n), hneg, String.toList_append]
      simp
  have hs : SpellsSign (decide (e < 0))
      ((if plus && decide (0 ≤ e) then "+" else "").toList ++ if e < 0 then ['-'] else []) := by
    by_cases he : e < 0
    · simpa [he, Int.not_le.mpr he] using SpellsSign.minus
    · cases plus with
      | true => simpa [he, Int.not_lt.mp he] using SpellsSign.plus
      | false => simpa [he] using SpellsSign.absent
  have hmark : (Numeral.exponentText plus e).toList = 'e' ::
      ((if plus && decide (0 ≤ e) then "+" else "").toList ++ if e < 0 then ['-'] else []) ++
        (d :: ds).map digitChar := by
    rw [Numeral.exponentText, String.toList_append, String.toList_append, htext]
    simp
  have hexponent : (if decide (e < 0) = true then -(ofDigits (d :: ds) : Int)
      else (ofDigits (d :: ds) : Int)) = e := by
    rw [hval]
    simp only [decide_eq_true_eq]
    split <;> omega
  have h := SpellsExponent.digits (.inl rfl) hs d ds
  rwa [hexponent, ← hmark] at h

theorem spells_numeral (n : Numeral) (plus : Bool) : SpellsNumeral n (n.text plus).toList := by
  obtain ⟨negative, whole, fraction, exponent⟩ := n
  have hf : SpellsFraction fraction
      (if fraction.isEmpty then "" else "." ++ String.ofList (fraction.map digitChar)).toList := by
    cases fraction with
    | nil => exact .absent
    | cons d ds =>
      simpa using SpellsFraction.digits d ds
  have he : SpellsExponent exponent (exponent.elim "" (Numeral.exponentText plus)).toList := by
    cases exponent with
    | none => exact .absent
    | some e => exact spells_exponent plus e
  have h := SpellsNumeral.mk negative (spells_whole whole) hf he
  simp only [Numeral.text, String.toList_append]
  cases negative <;> simpa using h

namespace Json

theorem spells_escape (c : Char) {cs t : List Char} (h : SpellsString cs true t) :
    SpellsString (c :: cs) true (escape c ++ t) := by
  simp only [escape]
  split
  · next hc =>
    subst hc
    exact .short (by decide) h
  split
  · next hc =>
    subst hc
    exact .short (by decide) h
  split
  · next hc =>
    subst hc
    exact .short (by decide) h
  split
  · next hc =>
    subst hc
    exact .short (by decide) h
  split
  · next hc =>
    subst hc
    exact .short (by decide) h
  split
  · next hc =>
    subst hc
    exact .short (by decide) h
  split
  · next hc =>
    subst hc
    exact .short (by decide) h
  split
  · next hc =>
    have hzero : SpellsHex 0 '0' := .lower (by omega)
    have hu := SpellsUnit.mk hzero hzero (.lower (n := c.toNat / 16) (by omega))
      (.lower (n := c.toNat % 16) (by omega))
    have hn : 4096 * 0 + 256 * 0 + 16 * (c.toNat / 16) + c.toNat % 16 = c.toNat := by omega
    rw [hn] at hu
    exact .unit hu h
  · next hq hb _ _ _ _ _ hc => exact .plain hq hb (by omega) h

theorem spells_flatMap_escape (cs : List Char) : SpellsString cs true (cs.flatMap escape) := by
  induction cs with
  | nil => exact .nil
  | cons c cs ih => exact spells_escape c ih

theorem spaces_nil : Spaces [] := nofun

theorem spells_key (key : String) : SpellsKey (some key) (quote key ++ [':']) := by
  have h := SpellsKey.mk spaces_nil (spells_flatMap_escape key.toList) spaces_nil
  simpa [quote] using h

variable {accepts : Numeral → Bool}

mutual

theorem spells_chars : ∀ j : Json, j.Usable accepts → Spells accepts j j.chars
  | .null, _ => .null
  | .bool true, _ => .isTrue
  | .bool false, _ => .isFalse
  | .number n, h => .number (spells_numeral n _) h
  | .string s, _ => .string (spells_flatMap_escape s.toList)
  | .array items cut, h => by
    obtain ⟨rfl, h⟩ := h
    by_cases hi : items = []
    · subst hi
      exact .emptyArray spaces_nil
    · exact .array (spells_itemChars items hi h)
  | .object members cut, h => by
    obtain ⟨rfl, h⟩ := h
    by_cases hm : members = []
    · subst hm
      exact .emptyObject spaces_nil
    · have hs : SpellsMembers accepts (members, none) (memberChars members) :=
        spells_memberChars members hm h
      exact .object hs
  | .broken _, h => h.elim

theorem spells_itemChars : ∀ items : List Json, items ≠ [] → SoundItems (accepts · = true) items →
    SpellsItems accepts items (itemChars items)
  | [], hi, _ => absurd rfl hi
  | [j], _, h => by
    have hs := SpellsItems.last spaces_nil (spells_chars j h.1) spaces_nil
    simpa [itemChars] using hs
  | j :: k :: items, _, h => by
    have hs := SpellsItems.cons spaces_nil (spells_chars j h.1) spaces_nil
      (spells_itemChars (k :: items) (by simp) h.2)
    simpa [itemChars] using hs

theorem spells_memberChars : ∀ members : List (String × Json), members ≠ [] →
    SoundMembers (accepts · = true) members →
      SpellsMembers accepts (members, none) (memberChars members)
  | [], hm, _ => absurd rfl hm
  | [(key, j)], _, h => by
    have hs := SpellsMembers.last (spells_key key) spaces_nil (spells_chars j h.1) spaces_nil
    simpa [memberChars, withKey] using hs
  | (key, j) :: m :: members, _, h => by
    have hs := SpellsMembers.cons (spells_key key) spaces_nil (spells_chars j h.1) spaces_nil
      (spells_memberChars (m :: members) (by simp) h.2)
    simpa [memberChars, withKey] using hs

end

theorem writes_of_spells {j : Json} {t : List Char} (h : Spells accepts j t) :
    Writes accepts j (String.ofList t) := by
  have hw := Writes.mk spaces_nil h spaces_nil
  simpa using hw

theorem writes_text {j : Json} (h : j.Usable accepts) : Writes accepts j j.text :=
  writes_of_spells (spells_chars j h)

end Json

end Diagram

import Diagram.Proofs.Zooming

namespace Diagram

theorem toInt_neg_of_ne_minValue {n : Int32} (h : n ≠ Int32.minValue) :
    (-n).toInt = -n.toInt := by
  have hne : n.toInt ≠ -2 ^ 31 := fun hn ↦
    h (Int32.toInt_inj.mp (hn.trans Int32.toInt_minValue.symm))
  have hlo := n.le_toInt
  have hhi := n.toInt_lt
  rw [Int32.toInt_neg, Int.bmod_eq_of_le (by omega) (by omega)]

variable {α : Type} [ExactArith α]

namespace ZoomPolicy

variable (p : ZoomPolicy α)

def compound (notches : ℤ) : α :=
  if 0 ≤ notches then p.wheelIn ^ notches.natAbs else p.wheelOut ^ notches.natAbs

theorem compound_of_nonneg {n : ℤ} (h : 0 ≤ n) : p.compound n = p.wheelIn ^ n.natAbs := if_pos h

theorem compound_of_nonpos {n : ℤ} (h : n ≤ 0) : p.compound n = p.wheelOut ^ n.natAbs := by
  rcases h.lt_or_eq with h | rfl
  · exact if_neg (not_le.mpr h)
  · rw [compound_of_nonneg p le_rfl, Int.natAbs_zero, pow_zero, pow_zero]

theorem compound_add {m n : ℤ} (h : 0 ≤ m ∧ 0 ≤ n ∨ m ≤ 0 ∧ n ≤ 0) :
    p.compound m * p.compound n = p.compound (m + n) := by
  obtain ⟨hm, hn⟩ | ⟨hm, hn⟩ := h
  · rw [compound_of_nonneg p hm, compound_of_nonneg p hn, compound_of_nonneg p (add_nonneg hm hn),
      ← pow_add, Int.natAbs_add_of_nonneg hm hn]
  · rw [compound_of_nonpos p hm, compound_of_nonpos p hn, compound_of_nonpos p (add_nonpos hm hn),
      ← pow_add, Int.natAbs_add_of_nonpos hm hn]

end ZoomPolicy

namespace Viewport

variable {v : Viewport α} {notches : Int32}

theorem wheelFactor?_of_nonneg (h : 0 ≤ notches.toInt) :
    v.wheelFactor? notches = some (v.policy.wheelIn ^ notches.toInt.natAbs) := by
  have hpos : (0 : Int32) ≤ notches := Int32.le_iff_toInt_le.mpr (Int32.toInt_zero.trans_le h)
  have habs : notches.toInt.toNat = notches.toInt.natAbs := by omega
  rw [wheelFactor?, if_pos hpos, habs, Arith.power_eq]

theorem wheelFactor?_of_neg (h : notches.toInt < 0) (hne : notches ≠ Int32.minValue) :
    v.wheelFactor? notches = some (v.policy.wheelOut ^ notches.toInt.natAbs) := by
  have hneg : ¬ (0 : Int32) ≤ notches := fun h₀ ↦ absurd (Int32.le_iff_toInt_le.mp h₀) (not_le.mpr h)
  have habs : (-notches.toInt).toNat = notches.toInt.natAbs := by omega
  rw [wheelFactor?, if_neg hneg, if_neg hne, toInt_neg_of_ne_minValue hne, habs, Arith.power_eq]

theorem wheelFactor?_eq_compound (h : notches ≠ Int32.minValue) :
    v.wheelFactor? notches = some (v.policy.compound notches.toInt) := by
  rcases le_or_gt 0 notches.toInt with hn | hn
  · rw [wheelFactor?_of_nonneg hn, ZoomPolicy.compound_of_nonneg _ hn]
  · rw [wheelFactor?_of_neg hn h, ZoomPolicy.compound_of_nonpos _ hn.le]

theorem wheelFactor?_cases {factor : α} (hf : v.wheelFactor? notches = some factor) :
    (0 ≤ notches.toInt ∧ factor = v.policy.wheelIn ^ notches.toInt.natAbs) ∨
      (notches.toInt < 0 ∧ factor = v.policy.wheelOut ^ notches.toInt.natAbs) := by
  have hne : notches ≠ Int32.minValue := fun h ↦
    Option.some_ne_none factor (hf.symm.trans ((v.wheelFactor?_eq_none_iff notches).mpr h))
  rcases le_or_gt 0 notches.toInt with hn | hn
  · exact .inl ⟨hn, Option.some.inj (hf.symm.trans (wheelFactor?_of_nonneg hn))⟩
  · exact .inr ⟨hn, Option.some.inj (hf.symm.trans (wheelFactor?_of_neg hn hne))⟩

/-- Two numbers of notches that are turned the same way, with a sum that is again such a number. -/
structure Addable (a b : Int32) : Prop where
  same_way : 0 ≤ a.toInt ∧ 0 ≤ b.toInt ∨ a.toInt ≤ 0 ∧ b.toInt ≤ 0
  least_le : Int32.minValue.toInt ≤ a.toInt + b.toInt
  le_greatest : a.toInt + b.toInt ≤ Int32.maxValue.toInt

theorem Addable.toInt_add {a b : Int32} (h : Addable a b) : (a + b).toInt = a.toInt + b.toInt := by
  have hlo := h.least_le
  have hhi := h.le_greatest
  rw [Int32.toInt_minValue] at hlo
  rw [Int32.toInt_maxValue] at hhi
  rw [Int32.toInt_add, Int.bmod_eq_of_le (by omega) (by omega)]

theorem Addable.ne_minValue {a b : Int32} (h : Addable a b) (hs : a + b ≠ Int32.minValue) :
    a ≠ Int32.minValue ∧ b ≠ Int32.minValue := by
  have hsum := h.toInt_add
  have hmin : (a + b).toInt ≠ Int32.minValue.toInt := fun heq ↦ hs (Int32.toInt_inj.mp heq)
  have hsame := h.same_way
  have hleast := h.least_le
  rw [Int32.toInt_minValue] at hmin hleast
  constructor
  · rintro rfl
    rw [Int32.toInt_minValue] at *
    omega
  · rintro rfl
    rw [Int32.toInt_minValue] at *
    omega

/-- A number of notches turns the wheel by as many factors as it says, and numbers that are turned the
same way add up. Only the most negative number has no negation, and therefore no factor. -/
theorem wheelFactor_compounds (v : Viewport α) :
    (∀ n : Int32, n ≠ Int32.minValue →
      (-n).toInt = -n.toInt ∧ v.wheelFactor? n = some (v.policy.compound n.toInt)) ∧
    (∀ n : Int32, v.wheelFactor? n = none ↔ n = Int32.minValue) ∧
    ∀ a b : Int32, Addable a b → a + b ≠ Int32.minValue →
      ∃ f g, v.wheelFactor? a = some f ∧ v.wheelFactor? b = some g ∧
        v.wheelFactor? (a + b) = some (f * g) := by
  refine ⟨fun n hn ↦ ⟨toInt_neg_of_ne_minValue hn, wheelFactor?_eq_compound hn⟩,
    v.wheelFactor?_eq_none_iff, fun a b h hs ↦ ?_⟩
  obtain ⟨ha, hb⟩ := h.ne_minValue hs
  refine ⟨_, _, wheelFactor?_eq_compound ha, wheelFactor?_eq_compound hb, ?_⟩
  rw [wheelFactor?_eq_compound hs, h.toInt_add, v.policy.compound_add h.same_way]

theorem wheelFactor_compounds_outwards : let v : Viewport ℝ := .unmoved .standard
    v.wheelFactor? (-2147483647) = some (v.policy.wheelOut ^ 2147483647) ∧
      ∃ f g, v.wheelFactor? (-2000000000) = some f ∧ v.wheelFactor? (-147483647) = some g ∧
        v.wheelFactor? (-2147483647) = some (f * g) := by
  obtain ⟨hturn, -, hsum⟩ := wheelFactor_compounds (.unmoved .standard : Viewport ℝ)
  have hadd : Addable (-2000000000) (-147483647) := by constructor <;> decide
  refine ⟨?_, hsum _ _ hadd (by decide)⟩
  rw [(hturn (-2147483647) (by decide)).2, ZoomPolicy.compound_of_nonpos _ (by decide)]
  rfl

/-- The most negative number of notches has no factor, where one notch less has. -/
theorem wheelFactor_minValue_missing : let v : Viewport ℝ := .unmoved .standard
    (-Int32.minValue).toInt ≠ -Int32.minValue.toInt ∧ v.wheelFactor? Int32.minValue = none ∧
      v.wheelFactor? (Int32.minValue + 1) ≠ none := by
  have hnone := (Viewport.unmoved .standard : Viewport ℝ).wheelFactor?_eq_none_iff
  exact ⟨by decide, (hnone _).mpr rfl, mt (hnone _).mp (by decide)⟩

end Viewport

end Diagram

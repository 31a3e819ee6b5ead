import Diagram.Number.Text
import Mathlib.Algebra.Order.Round
import Mathlib.Data.Rat.Floor
import Mathlib.RingTheory.Coprime.Lemmas
import Mathlib.Tactic.FieldSimp
import Mathlib.Tactic.Linarith
import Mathlib.Tactic.Positivity
import Mathlib.Tactic.Ring

namespace Diagram

theorem twoPow_eq (n : Nat) : twoPow n = 2 ^ n := rfl

def dyadic (m : Nat) (e : Int) : ℚ := m * 2 ^ e

theorem dyadic_nonneg (m : Nat) (e : Int) : 0 ≤ dyadic m e :=
  mul_nonneg m.cast_nonneg (zpow_nonneg two_pos.le e)

theorem dyadic_pos {m : Nat} (hm : 0 < m) (e : Int) : 0 < dyadic m e :=
  mul_pos (Nat.cast_pos.mpr hm) (zpow_pos two_pos e)

theorem ne_zero_of_dyadic_pos {m : Nat} {e : Int} (h : 0 < dyadic m e) : m ≠ 0 := by
  rintro rfl
  rw [dyadic, Nat.cast_zero, zero_mul] at h
  exact h.false

theorem dyadic_nat (m : Nat) : dyadic m 0 = m := by
  rw [dyadic, zpow_zero, mul_one]

theorem dyadic_mul (m n : Nat) (e : Int) : dyadic (n * m) e = n * dyadic m e := by
  rw [dyadic, dyadic, Nat.cast_mul, mul_assoc]

theorem dyadic_shift (m k : Nat) (e : Int) : dyadic (m * 2 ^ k) e = dyadic m (e + k) := by
  rw [dyadic, dyadic, zpow_add₀ two_ne_zero, zpow_natCast]
  push_cast
  ring

theorem ratio_pos (m : Nat) (e : Int) : 0 < (ratio m e).2 := Nat.two_pow_pos _

theorem ratio_value (m : Nat) (e : Int) : ((ratio m e).1 : ℚ) / (ratio m e).2 = dyadic m e := by
  have hsplit : (2 : ℚ) ^ e = 2 ^ e.toNat / 2 ^ (-e).toNat := by
    rw [← zpow_natCast, ← zpow_natCast, ← zpow_sub₀ two_ne_zero]
    congr 1
    omega
  rw [dyadic, hsplit]
  simp only [ratio, twoPow_eq]
  push_cast
  ring

/-- No whole number is nearer to a quotient than the one that it is rounded to. -/
theorem roundRatio_near {d : Nat} (hd : 0 < d) (n : Nat) :
    |(n : ℚ) / d - roundRatio n d| ≤ 1 / 2 := by
  have hdiv := Nat.div_add_mod n d
  have hmod := Nat.mod_lt n hd
  have hbounds : 2 * n ≤ (2 * roundRatio n d + 1) * d ∧ 2 * roundRatio n d * d ≤ 2 * n + d := by
    simp only [roundRatio]
    generalize n / d = q at hdiv ⊢
    generalize n % d = r at hdiv hmod ⊢
    subst hdiv
    split_ifs <;> constructor <;> linarith
  have hd' : (0 : ℚ) < d := Nat.cast_pos.mpr hd
  obtain ⟨hhigh, hlow⟩ := hbounds
  have hhigh' : 2 * (n : ℚ) ≤ (2 * roundRatio n d + 1) * d := by exact_mod_cast hhigh
  have hlow' : 2 * (roundRatio n d : ℚ) * d ≤ 2 * n + d := by exact_mod_cast hlow
  rw [abs_le, le_sub_iff_add_le, sub_le_iff_le_add, le_div_iff₀ hd', div_le_iff₀ hd']
  constructor <;> linarith

theorem roundMagnitude_eq (m : Nat) (e : Int) : (Binary.roundMagnitude m e : ℤ) = round (dyadic m e) := by
  by_cases he : 0 ≤ e
  · have hwhole : dyadic m e = (m * 2 ^ e.toNat : ℕ) := by
      rw [← dyadic_nat, dyadic_shift]
      congr 1
      omega
    rw [Binary.roundMagnitude, if_pos he, hwhole, round_natCast]
    rfl
  · have hhalves : dyadic m e + 1 / 2 =
        ((2 * m + 2 ^ (-e).toNat : ℕ) : ℤ) / ((2 ^ ((-e).toNat + 1) : ℕ) : ℚ) := by
      have hexp : (2 : ℚ) ^ e = (2 ^ (-e).toNat)⁻¹ := by
        rw [← zpow_natCast, ← zpow_neg]
        congr 1
        omega
      rw [dyadic, hexp]
      push_cast
      field_simp
      ring
    rw [Binary.roundMagnitude, if_neg he, round_eq, hhalves, Rat.floor_intCast_div_natCast]
    rfl

/-- Halfway between two tenths there are only odd multiples of a quarter, as no power of two has a
factor five. -/
theorem dyadic_halfway {m : Nat} {e k : Int} (h : 20 * dyadic m e = 2 * k + 1) :
    ∃ i : ℤ, 4 * dyadic m e = 2 * i + 1 := by
  have hpos := ratio_pos m e
  have hpow : (ratio m e).2 = 2 ^ (-e).toNat := rfl
  rw [← ratio_value] at h ⊢
  generalize (ratio m e).1 = n at *
  generalize (ratio m e).2 = d at *
  have hd : (d : ℚ) ≠ 0 := Nat.cast_ne_zero.mpr hpos.ne'
  rw [mul_div_assoc', div_eq_iff hd] at h
  have hn : 20 * (n : ℤ) = (2 * k + 1) * d := by exact_mod_cast h
  have hcoprime : IsCoprime (5 : ℤ) d := by
    rw [hpow]
    exact Nat.isCoprime_iff_coprime.mpr (Nat.Coprime.pow_right _ (by decide))
  obtain ⟨i, hi⟩ : (5 : ℤ) ∣ 2 * k + 1 :=
    hcoprime.dvd_of_dvd_mul_right ⟨4 * n, by omega⟩
  refine ⟨(i - 1) / 2, ?_⟩
  rw [mul_div_assoc', div_eq_iff hd]
  have hodd : 2 * ((i - 1) / 2) + 1 = i := by omega
  have hquarter : 4 * (n : ℤ) = (2 * ((i - 1) / 2) + 1) * d := by
    rw [hodd]
    rw [hi] at hn
    linarith
  exact_mod_cast hquarter

namespace Binary

def value : Binary → ℚ
  | .finite negative m e => if negative then -dyadic m e else dyadic m e
  | _ => 0

variable {negative : Bool} {m : Nat} {e : Int}

theorem abs_value (negative : Bool) (m : Nat) (e : Int) :
    |(finite negative m e).value| = dyadic m e := by
  cases negative with
  | false => exact abs_of_nonneg (dyadic_nonneg m e)
  | true => exact (abs_neg _).trans (abs_of_nonneg (dyadic_nonneg m e))

theorem value_neg_iff : (finite negative m e).value < 0 ↔ negative = true ∧ m ≠ 0 := by
  have hnonneg := dyadic_nonneg m e
  cases negative with
  | false => simpa [value] using hnonneg
  | true =>
    simp only [value, if_true, Left.neg_neg_iff, true_and]
    exact ⟨ne_zero_of_dyadic_pos, fun hm ↦ dyadic_pos (Nat.pos_of_ne_zero hm) e⟩

theorem isHalfTenth_iff : (finite negative m e).isHalfTenth = true ↔
    ∃ k : ℕ, 4 * dyadic m e = 2 * k + 1 := by
  have hpos := ratio_pos (4 * m) e
  have hvalue : 4 * dyadic m e = ((ratio (4 * m) e).1 : ℚ) / (ratio (4 * m) e).2 := by
    rw [ratio_value, dyadic_mul]
    norm_num
  rw [hvalue]
  simp only [isHalfTenth, Bool.and_eq_true, beq_iff_eq]
  generalize (ratio (4 * m) e).1 = n at *
  generalize (ratio (4 * m) e).2 = d at *
  have hd : (d : ℚ) ≠ 0 := by positivity
  constructor
  · rintro ⟨hdvd, hodd⟩
    refine ⟨n / d / 2, ?_⟩
    have hn : n = (2 * (n / d / 2) + 1) * d := by
      have hq : n / d = 2 * (n / d / 2) + 1 := by omega
      rw [← hq, Nat.div_mul_cancel (Nat.dvd_of_mod_eq_zero hdvd)]
    rw [div_eq_iff hd]
    exact_mod_cast hn
  · rintro ⟨k, hk⟩
    rw [div_eq_iff hd] at hk
    have hn : n = (2 * k + 1) * d := by exact_mod_cast hk
    subst hn
    rw [Nat.mul_mod_left, Nat.mul_div_cancel _ hpos]
    omega

theorem odd_value_iff (negative : Bool) (c : ℚ) :
    (∃ k : ℤ, c * (finite negative m e).value = 2 * k + 1) ↔
      ∃ k : ℤ, c * dyadic m e = 2 * k + 1 := by
  cases negative with
  | false => exact Iff.rfl
  | true =>
    have hmirror {w : ℚ} (h : ∃ k : ℤ, c * w = 2 * k + 1) : ∃ k : ℤ, c * -w = 2 * k + 1 := by
      obtain ⟨k, hk⟩ := h
      refine ⟨-k - 1, ?_⟩
      push_cast
      linarith
    exact ⟨fun h ↦ neg_neg (dyadic m e) ▸ hmirror h, hmirror⟩

theorem halfway_iff : (∃ k : ℤ, 20 * (finite negative m e).value = 2 * k + 1) ↔
    ∃ k : ℤ, 4 * (finite negative m e).value = 2 * k + 1 := by
  refine ⟨fun h ↦ ?_, fun ⟨k, hk⟩ ↦ ⟨5 * k + 2, ?_⟩⟩
  · obtain ⟨k, hk⟩ := (odd_value_iff _ 20).mp h
    exact (odd_value_iff _ 4).mpr (dyadic_halfway hk)
  · push_cast
    linarith

theorem isHalfTenth_iff_value : (finite negative m e).isHalfTenth = true ↔
    ∃ k : ℤ, 4 * (finite negative m e).value = 2 * k + 1 := by
  rw [isHalfTenth_iff, odd_value_iff]
  refine ⟨fun ⟨k, hk⟩ ↦ ⟨k, by exact_mod_cast hk⟩, fun ⟨k, hk⟩ ↦ ?_⟩
  have hnonneg : 0 ≤ 2 * k + 1 := by
    exact_mod_cast (by linarith [dyadic_nonneg m e] : (0 : ℚ) ≤ 2 * k + 1)
  lift k to ℕ using by omega
  exact ⟨k, by exact_mod_cast hk⟩

end Binary

end Diagram

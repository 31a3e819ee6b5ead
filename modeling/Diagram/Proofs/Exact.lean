import Mathlib.Algebra.Order.Field.Basic
import Mathlib.Analysis.Real.Sqrt
import Mathlib.Tactic.Linarith
import Mathlib.Tactic.Ring
import Diagram.Arith

namespace Diagram

/-- Arithmetic without rounding, which is that of an ordered field. -/
class ExactArith (α : Type) extends Field α, LinearOrder α, IsStrictOrderedRing α, Arith α where
  lawful : @LawfulBEq α toBEq
  ofScientific_eq : ∀ (m : ℕ) (small : Bool) (e : ℕ),
    toOfScientific.ofScientific m small e = if small then (m : α) / 10 ^ e else (m : α) * 10 ^ e
  ofNat_eq : ∀ n : ℕ, toArith.ofNat n = (n : α)

/-- Exact arithmetic in which a number that is not negative has an exact square root. -/
class ExactRoots (α : Type) extends ExactArith α where
  sqrt_nonneg : ∀ x : α, 0 ≤ toArith.sqrt x
  sqrt_mul_self : ∀ x : α, 0 ≤ x → toArith.sqrt x * toArith.sqrt x = x

attribute [instance] ExactArith.lawful

open Classical in
noncomputable instance : ExactRoots ℝ where
  beq x y := decide (x = y)
  decLt := inferInstance
  decLe := inferInstance
  sqrt := Real.sqrt
  hypotenuse x y := Real.sqrt (x * x + y * y)
  ofNat n := n
  infinity := 0
  ofScientific m small e := if small then (m : ℝ) / 10 ^ e else (m : ℝ) * 10 ^ e
  lawful := { eq_of_beq := of_decide_eq_true, rfl := decide_eq_true rfl }
  ofScientific_eq _ _ _ := rfl
  ofNat_eq _ := rfl
  sqrt_nonneg := Real.sqrt_nonneg
  sqrt_mul_self _ := Real.mul_self_sqrt

namespace ExactArith

variable {α : Type} [ExactArith α]

@[simp]
theorem zero_eq :
    @OfScientific.ofScientific α Arith.toOfScientific (nat_lit 0) true (nat_lit 1) = 0 := by
  refine (ofScientific_eq _ _ _).trans ?_
  simp

@[simp]
theorem one_eq :
    @OfScientific.ofScientific α Arith.toOfScientific (nat_lit 10) true (nat_lit 1) = 1 := by
  refine (ofScientific_eq _ _ _).trans ?_
  norm_num

@[simp]
theorem two_eq :
    @OfScientific.ofScientific α Arith.toOfScientific (nat_lit 20) true (nat_lit 1) = 2 := by
  refine (ofScientific_eq _ _ _).trans ?_
  norm_num

@[simp]
theorem ofNat_cast (n : ℕ) : (Arith.ofNat n : α) = n := ofNat_eq n

end ExactArith

namespace Arith

variable {α : Type} [ExactArith α]

theorem clamp_eq {x lo hi : α} (h : lo ≤ hi) : clamp x lo hi = max lo (min x hi) := by
  unfold clamp
  split_ifs with hlo hhi
  · rw [max_eq_left ((min_le_left x hi).trans hlo.le)]
  · rw [min_eq_right hhi.le, max_eq_right h]
  · rw [min_eq_left (not_lt.mp hhi), max_eq_right (not_lt.mp hlo)]

theorem clamp?_eq {x lo hi : α} (h : lo ≤ hi) : clamp? x lo hi = some (max lo (min x hi)) := by
  rw [clamp?, if_pos h, clamp_eq h]

theorem powerFrom_eq (acc x : α) (n : ℕ) : powerFrom acc x n = acc * x ^ n := by
  induction n using Nat.strong_induction_on generalizing acc x with
  | _ n ih =>
    have hsplit := Nat.div_add_mod n 2
    unfold powerFrom
    simp only
    by_cases hn : n / 2 = 0
    · obtain rfl | rfl : n = 0 ∨ n = 1 := by omega
      · simp
      · simp
    · rw [if_neg hn, ih (n / 2) (by omega)]
      rcases Nat.mod_two_eq_zero_or_one n with hbit | hbit
      · rw [if_neg (by omega)]
        conv_rhs => rw [← hsplit, hbit, add_zero, pow_mul]
        ring
      · rw [if_pos hbit]
        conv_rhs => rw [← hsplit, hbit, pow_succ, pow_mul]
        ring

theorem power_eq (x : α) (n : ℕ) : power x n = x ^ n := by
  rw [power, powerFrom_eq, ExactArith.one_eq, one_mul]

theorem power_pos {x : α} (hx : 0 < x) (n : ℕ) : 0 < power x n :=
  power_eq x n ▸ pow_pos hx n

section Roots

variable {α : Type} [ExactRoots α]

theorem sqrt_nonneg (x : α) : 0 ≤ sqrt x := ExactRoots.sqrt_nonneg x

theorem sqrt_mul_self {x : α} (hx : 0 ≤ x) : sqrt x * sqrt x = x := ExactRoots.sqrt_mul_self x hx

theorem sqrt_le_one {x : α} (h₀ : 0 ≤ x) (h₁ : x ≤ 1) : sqrt x ≤ 1 := by
  by_contra! h
  have hlt : 1 < sqrt x * sqrt x := one_lt_mul_of_lt_of_le h h.le
  rw [sqrt_mul_self h₀] at hlt
  exact hlt.not_ge h₁

end Roots

end Arith

end Diagram

import Mathlib.Algebra.Order.Round
import Mathlib.Data.Rat.Floor
import Mathlib.Tactic.Linarith
import Mathlib.Tactic.Ring

namespace Diagram

/-- How many tenths are nearest to a number. Halfway between two tenths that is the one farther from
zero. -/
def tenths (v : ℚ) : ℤ := if v < 0 then -round (-(10 * v)) else round (10 * v)

theorem tenths_of_nonneg {v : ℚ} (hv : 0 ≤ v) : tenths v = round (10 * v) := if_neg hv.not_gt

theorem tenths_neg (v : ℚ) : tenths (-v) = -tenths v := by
  obtain hv | rfl | hv := lt_trichotomy v 0
  · rw [tenths_of_nonneg (neg_pos.mpr hv).le, tenths, if_pos hv, neg_neg, mul_neg]
  · rw [neg_zero, tenths_of_nonneg le_rfl, mul_zero, round_zero, neg_zero]
  · rw [tenths, if_pos (neg_neg_of_pos hv), tenths_of_nonneg hv.le, mul_neg, neg_neg]

/-- What holds of the numbers from zero on and goes over to the other sign holds of all. -/
theorem by_sign {p : ℚ → Prop} (hpos : ∀ v, 0 ≤ v → p v) (hneg : ∀ v, p (-v) → p v) (v : ℚ) :
    p v := by
  obtain hv | hv := le_total 0 v
  · exact hpos v hv
  · exact hneg v (hpos _ (neg_nonneg.mpr hv))

theorem abs_mirror (v : ℚ) (u : ℤ) : |10 * -v - (-u : ℤ)| = |10 * v - u| := by
  rw [← abs_neg]
  congr 1
  push_cast
  ring

theorem tenths_nearest (v : ℚ) (u : ℤ) : |10 * v - tenths v| ≤ |10 * v - u| := by
  induction v using by_sign generalizing u with
  | hpos v hv =>
    rw [tenths_of_nonneg hv]
    exact round_le _ u
  | hneg v ih =>
    have h := ih (-u)
    rwa [tenths_neg, abs_mirror, abs_mirror] at h

theorem tenths_mono {v w : ℚ} (h : v ≤ w) : tenths v ≤ tenths w := by
  have hround {p q : ℚ} (hpq : p ≤ q) : round p ≤ round q := by
    rw [round_eq, round_eq]
    exact Int.floor_le_floor (by linarith)
  have hnonneg {q : ℚ} (hq : 0 ≤ q) : 0 ≤ round q := by
    rw [← round_zero (α := ℚ)]
    exact hround hq
  unfold tenths
  split_ifs with hv hw hw
  · exact neg_le_neg (hround (by linarith))
  · have h1 := hnonneg (q := -(10 * v)) (by linarith)
    have h2 := hnonneg (q := 10 * w) (by linarith)
    omega
  · linarith
  · exact hround (by linarith)

theorem tenths_zero : tenths 0 = 0 := by rw [tenths_of_nonneg le_rfl, mul_zero, round_zero]

theorem tenths_sign (v : ℚ) :
    tenths v = if v < 0 then -((tenths v).natAbs : ℤ) else (tenths v).natAbs := by
  split
  · next hv =>
    have hnonpos : tenths v ≤ 0 := tenths_zero ▸ tenths_mono hv.le
    omega
  · next hv =>
    have hnonneg : 0 ≤ tenths v := tenths_zero ▸ tenths_mono (not_lt.mp hv)
    omega

theorem tenths_tie {v : ℚ} {u : ℤ} (hu : u ≠ tenths v) (h : |10 * v - u| = |10 * v - tenths v|) :
    |u| < |tenths v| ∧ ∃ k : ℤ, 20 * v = 2 * k + 1 := by
  induction v using by_sign generalizing u with
  | hpos v hv =>
    have hround : tenths v = ⌊10 * v + 1 / 2⌋ := (tenths_of_nonneg hv).trans (round_eq _)
    have hlow := Int.floor_le (10 * v + 1 / 2)
    have hhigh := Int.lt_floor_add_one (10 * v + 1 / 2)
    rw [← hround] at hlow hhigh
    generalize tenths v = t at *
    obtain hsame | hmirror := abs_eq_abs.mp h
    · exact absurd (by exact_mod_cast (by linarith : (u : ℚ) = t)) hu
    -- The other number lies as far on the other side, so it is the one below.
    · have hleast : t ≤ u + 1 := by exact_mod_cast (by linarith : (t : ℚ) ≤ u + 1)
      have hgreatest : u < t + 1 := by exact_mod_cast (by linarith : (u : ℚ) < t + 1)
      have hbelow : u = t - 1 := by omega
      have hodd : 20 * v = 2 * (t - 1 : ℤ) + 1 := by
        rw [hbelow] at hmirror
        push_cast at hmirror ⊢
        linarith
      have hpos : 0 < 2 * t := by exact_mod_cast (by push_cast at hodd; linarith : (0 : ℚ) < 2 * t)
      refine ⟨?_, t - 1, hodd⟩
      rw [hbelow, abs_of_nonneg (by omega), abs_of_pos (by omega)]
      omega
  | hneg v ih =>
    have hu' : -u ≠ tenths (-v) := by
      rw [tenths_neg]
      exact fun heq ↦ hu (neg_injective heq)
    have h' : |10 * -v - (-u : ℤ)| = |10 * -v - tenths (-v)| := by
      rw [tenths_neg, abs_mirror, abs_mirror, h]
    obtain ⟨hfarther, k, hk⟩ := ih hu' h'
    rw [tenths_neg, abs_neg, abs_neg] at hfarther
    refine ⟨hfarther, -k - 1, ?_⟩
    push_cast
    linarith

theorem tenths_tie_iff (v : ℚ) :
    (∃ u, u ≠ tenths v ∧ |10 * v - u| = |10 * v - tenths v|) ↔ ∃ k : ℤ, 20 * v = 2 * k + 1 := by
  refine ⟨fun ⟨u, hu, h⟩ ↦ (tenths_tie hu h).2, fun ⟨k, hk⟩ ↦ ⟨2 * k + 1 - tenths v, by omega, ?_⟩⟩
  rw [← abs_neg]
  congr 1
  push_cast
  linarith

theorem round_of_near {q : ℚ} {n : ℤ} (h : |q - n| < 1 / 2) : round q = n := by
  rw [round_eq, Int.floor_eq_iff]
  obtain ⟨hlow, hhigh⟩ := abs_lt.mp h
  constructor <;> linarith

theorem eq_of_near {q : ℚ} {n r : ℕ} (hn : |q - n| < 1 / 2) (hr : |q - r| ≤ 1 / 2) : r = n := by
  have hdiff : |((r : ℤ) - n : ℚ)| < 1 := by
    rw [abs_lt] at hn ⊢
    rw [abs_le] at hr
    push_cast
    constructor <;> linarith
  have : (r : ℤ) - n = 0 := Int.abs_lt_one_iff.mp (by exact_mod_cast hdiff)
  omega

end Diagram

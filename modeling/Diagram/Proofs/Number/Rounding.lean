import Diagram.Proofs.Number.Nearest
import Diagram.Proofs.Number.Packing

namespace Diagram

open Float.Model Float.Model.UnpackedFloat

/-- A number that is the significand where nothing was cut off, and otherwise where the two extra bits
say, between the significand and the next one. -/
def CutFrom : ExtendedMantissa → ℚ → Prop
  | ⟨m, false, false⟩, x => x = m
  | ⟨m, false, true⟩, x => m < x ∧ x < m + 1 / 2
  | ⟨m, true, false⟩, x => x = m + 1 / 2
  | ⟨m, true, true⟩, x => m + 1 / 2 < x ∧ x < m + 1

namespace CutFrom

variable {em : ExtendedMantissa} {x : ℚ}

theorem mantissa_le (h : CutFrom em x) : (em.mantissa : ℚ) ≤ x := by
  obtain ⟨m, roundBit, stickyBit⟩ := em
  cases roundBit <;> cases stickyBit <;> simp only [CutFrom] at h ⊢ <;> linarith

theorem rounded (h : CutFrom em x) : |x - em.roundedMantissa| ≤ 1 / 2 := by
  obtain ⟨m, roundBit, stickyBit⟩ := em
  cases roundBit <;> cases stickyBit <;>
    simp only [CutFrom, ExtendedMantissa.roundedMantissa, ExtendedMantissa.accuracy,
      Accuracy.roundToNearestEven] at h ⊢
  · rw [h, sub_self, abs_zero]
    norm_num
  · rw [abs_le]
    constructor <;> linarith
  · obtain heven | hodd := Nat.mod_two_eq_zero_or_one m
    · rw [h, heven]
      norm_num
    · rw [h, hodd]
      push_cast
      norm_num
  · push_cast
    rw [abs_le]
    constructor <;> linarith

theorem shiftRightOne (h : CutFrom em x) : CutFrom em.shiftRightOne (x / 2) := by
  obtain ⟨m, roundBit, stickyBit⟩ := em
  -- The last bit of the significand becomes the round bit, and the two bits behind it the sticky bit.
  obtain ⟨n, rfl | rfl⟩ := Nat.even_or_odd' m
  · have hhalf : (2 * n) / 2 = n ∧ ((2 * n) % 2 != 0) = false := by
      rw [Nat.mul_mod_right]
      exact ⟨by omega, rfl⟩
    cases roundBit <;> cases stickyBit <;>
      simp only [CutFrom, ExtendedMantissa.shiftRightOne, hhalf, Bool.or_self, Bool.or_true,
        Bool.or_false, Nat.cast_mul, Nat.cast_ofNat] at h ⊢
    · linarith
    all_goals constructor <;> linarith
  · have hhalf : (2 * n + 1) / 2 = n ∧ ((2 * n + 1) % 2 != 0) = true := by
      rw [Nat.mul_add_mod]
      exact ⟨by omega, rfl⟩
    cases roundBit <;> cases stickyBit <;>
      simp only [CutFrom, ExtendedMantissa.shiftRightOne, hhalf, Bool.or_self, Bool.or_true,
        Bool.or_false, Nat.cast_mul, Nat.cast_ofNat, Nat.cast_succ] at h ⊢
    · linarith
    all_goals constructor <;> linarith

theorem shiftRight (h : CutFrom em x) (n : Nat) : CutFrom (em >>> n) (x / 2 ^ n) := by
  change CutFrom (n.repeat ExtendedMantissa.shiftRightOne em) _
  induction n with
  | zero => rwa [pow_zero, div_one]
  | succ n ih =>
    rw [pow_succ, ← div_div]
    exact ih.shiftRightOne

end CutFrom

theorem mantissa_shiftRight (em : ExtendedMantissa) (n : Nat) :
    (em >>> n).mantissa = em.mantissa / 2 ^ n := by
  change (n.repeat ExtendedMantissa.shiftRightOne em).mantissa = _
  induction n with
  | zero =>
    rw [pow_zero, Nat.div_one]
    rfl
  | succ n ih =>
    rw [pow_succ, ← Nat.div_div_eq_div_mul, ← ih]
    rfl

theorem cutFrom_div {d : Nat} (hd : 0 < d) (n : Nat) :
    CutFrom (.ofMantissaAndAccuracy (n / d) (accuracyOfFraction (n % d) d)) (n / d) := by
  have hd' : (0 : ℚ) < d := Nat.cast_pos.mpr hd
  have hvalue : (n : ℚ) / d = (n / d : ℕ) + (n % d : ℕ) / d := by
    have hn : (n : ℚ) = d * (n / d : ℕ) + (n % d : ℕ) := by exact_mod_cast (Nat.div_add_mod n d).symm
    rw [div_eq_iff hd'.ne', add_mul, div_mul_cancel₀ _ hd'.ne', mul_comm]
    exact hn
  have hlt := Nat.mod_lt n hd
  rw [hvalue]
  generalize n / d = q
  generalize n % d = r at hlt
  have hlt' : (r : ℚ) / d < 1 := (div_lt_one hd').mpr (Nat.cast_lt.mpr hlt)
  rw [accuracyOfFraction]
  split
  · next hzero =>
    rw [hzero, Nat.cast_zero, zero_div, add_zero]
    rfl
  · next hpos =>
    have hpos' : 0 < (r : ℚ) / d := div_pos (Nat.cast_pos.mpr (Nat.pos_of_ne_zero hpos)) hd'
    obtain hhalf | hhalf | hhalf := lt_trichotomy (2 * r) d
    · have hhalf' : (r : ℚ) / d < 1 / 2 := by
        rw [div_lt_div_iff₀ hd' two_pos]
        exact_mod_cast (by omega : r * 2 < 1 * d)
      rw [compare_lt_iff_lt.mpr hhalf]
      constructor <;> linarith
    · have hhalf' : (r : ℚ) / d = 1 / 2 := by
        rw [div_eq_div_iff hd'.ne' two_ne_zero]
        exact_mod_cast (by omega : r * 2 = 1 * d)
      rw [compare_eq_iff_eq.mpr hhalf]
      exact congrArg _ hhalf'
    · have hhalf' : 1 / 2 < (r : ℚ) / d := by
        rw [div_lt_div_iff₀ two_pos hd']
        exact_mod_cast (by omega : 1 * d < r * 2)
      rw [compare_gt_iff_gt.mpr hhalf]
      constructor <;> linarith

theorem mantissaBits_binary64 : (Format.binary64.mantissaBits : ℤ) = 53 := rfl

theorem minExponent_binary64 : Format.binary64.minExponent = -1074 := rfl

theorem shiftToTarget_eq {m : Nat} {e : Int} (a : Accuracy) (hm : 52 ≤ m.log2)
    (hlow : -1022 ≤ m.log2 + e) :
    shiftToTargetExponent Format.binary64 m e a =
      (ExtendedMantissa.ofMantissaAndAccuracy m a >>> (m.log2 - 52), e + (m.log2 - 52 : Nat)) := by
  have htarget : Format.binary64.targetExponent (totalExponent m e) = m.log2 + e - 52 := by
    rw [Format.targetExponent, totalExponent, mantissaBits_binary64, minExponent_binary64]
    omega
  have hshift : ((m.log2 + e - 52 : ℤ) - e).toNat = m.log2 - 52 := by omega
  rw [shiftToTargetExponent, htarget, shiftToExponent, hshift]

/-- A multiple of the last bit that the precision of a value has room for, and no other is nearer. -/
def RoundsTo (v w : ℚ) : Prop :=
  ∃ (r : ℕ) (t : ℤ), w = dyadic r t ∧ 2 ^ (t + 52) ≤ v ∧ |v - w| ≤ 2 ^ t / 2

namespace RoundsTo

variable {v w : ℚ}

theorem relative (h : RoundsTo v w) : |v - w| ≤ v / 2 ^ 53 := by
  obtain ⟨r, t, -, hlow, herror⟩ := h
  have hscale : (2 : ℚ) ^ (t + 52) = 2 ^ t * 2 ^ 52 := by
    rw [zpow_add₀ two_ne_zero]
    norm_num
  rw [hscale] at hlow
  rw [le_div_iff₀ (by norm_num)]
  calc |v - w| * 2 ^ 53 ≤ 2 ^ t / 2 * 2 ^ 53 := mul_le_mul_of_nonneg_right herror (by norm_num)
    _ = 2 ^ t * 2 ^ 52 := by ring
    _ ≤ v := hlow

theorem exact {n : Nat} {e : Int} (h : RoundsTo v w) (hv : v = dyadic n e) (hn : n < 2 ^ 53) :
    w = v := by
  obtain ⟨r, t, rfl, hlow, herror⟩ := h
  -- The number is itself a multiple of the last bit, and two multiples are not half a bit apart.
  have hte : t ≤ e := by
    have hlt : (2 : ℚ) ^ (t + 52) < 2 ^ (53 + e) := by
      refine hlow.trans_lt ?_
      rw [hv, dyadic, zpow_add₀ two_ne_zero]
      refine mul_lt_mul_of_pos_right ?_ (zpow_pos two_pos e)
      exact_mod_cast hn
    have := (zpow_lt_zpow_iff_right₀ one_lt_two).mp hlt
    omega
  have hgrid : v = dyadic (n * 2 ^ (e - t).toNat) t := by
    rw [dyadic_shift, hv]
    congr 1
    omega
  generalize n * 2 ^ (e - t).toNat = k at hgrid
  have hdiff : |(k : ℚ) - r| * 2 ^ t ≤ 1 / 2 * 2 ^ t := by
    have hunit : |(2 : ℚ) ^ t| = 2 ^ t := abs_of_pos (zpow_pos two_pos t)
    rw [hgrid, dyadic, dyadic, ← sub_mul, abs_mul, hunit] at herror
    linarith
  have hnear : |(k : ℚ) - r| ≤ 1 / 2 := le_of_mul_le_mul_right hdiff (zpow_pos two_pos t)
  have hself : |(k : ℚ) - k| < 1 / 2 := by
    rw [sub_self, abs_zero]
    norm_num
  rw [hgrid, eq_of_near hself hnear]

end RoundsTo

theorem roundedMantissa_bounds (em : ExtendedMantissa) :
    em.mantissa ≤ em.roundedMantissa ∧ em.roundedMantissa ≤ em.mantissa + 1 := by
  obtain ⟨m, roundBit, stickyBit⟩ := em
  cases roundBit <;> cases stickyBit <;>
    simp only [ExtendedMantissa.roundedMantissa, ExtendedMantissa.accuracy,
      Accuracy.roundToNearestEven] <;> omega

theorem mantissa_ofMantissaAndAccuracy (m : Nat) (a : Accuracy) :
    (ExtendedMantissa.ofMantissaAndAccuracy m a).mantissa = m := by
  cases a with
  | exact => rfl
  | inexact o => cases o <;> rfl

theorem leading_full {m : Nat} (hm : 2 ^ 52 ≤ m) :
    52 ≤ m.log2 ∧ 2 ^ 52 ≤ m / 2 ^ (m.log2 - 52) ∧ m / 2 ^ (m.log2 - 52) < 2 ^ 53 := by
  have hpos : m ≠ 0 := by omega
  have hlog : 52 ≤ m.log2 := (Nat.le_log2 hpos).mpr hm
  refine ⟨hlog, ?_, ?_⟩
  · rw [Nat.le_div_iff_mul_le (Nat.two_pow_pos _), ← pow_add, Nat.add_sub_cancel' hlog]
    exact Nat.log2_self_le hpos
  · rw [Nat.div_lt_iff_lt_mul (Nat.two_pow_pos _), ← pow_add]
    have hsum : 53 + (m.log2 - 52) = m.log2 + 1 := by omega
    rw [hsum]
    exact Nat.lt_log2_self

/-- A significand that is cut down to the precision is as near as it can be. -/
theorem roundsTo_shiftRight {em : ExtendedMantissa} {x : ℚ} (hx : CutFrom em x)
    (hm : 2 ^ 52 ≤ em.mantissa) (e : Int) :
    RoundsTo (x * 2 ^ e) (dyadic (em >>> (em.mantissa.log2 - 52)).roundedMantissa
      (e + (em.mantissa.log2 - 52 : Nat))) := by
  obtain ⟨hlog, -⟩ := leading_full hm
  refine ⟨_, _, rfl, ?_, ?_⟩
  · have hexp : e + (em.mantissa.log2 - 52 : Nat) + 52 = (em.mantissa.log2 : ℤ) + e := by omega
    have hleast : ((2 ^ em.mantissa.log2 : ℕ) : ℚ) ≤ x :=
      (Nat.cast_le.mpr (Nat.log2_self_le (by omega))).trans hx.mantissa_le
    rw [hexp, zpow_add₀ two_ne_zero, zpow_natCast]
    refine mul_le_mul_of_nonneg_right ?_ (zpow_pos two_pos e).le
    exact_mod_cast hleast
  · have hcut := (hx.shiftRight (em.mantissa.log2 - 52)).rounded
    generalize (em >>> (em.mantissa.log2 - 52)).roundedMantissa = r at hcut ⊢
    generalize em.mantissa.log2 - 52 = k at hcut ⊢
    have hunit : (0 : ℚ) < 2 ^ (e + k) := zpow_pos two_pos _
    have hscale : x * 2 ^ e - dyadic r (e + k) = (x / 2 ^ k - r) * 2 ^ (e + k) := by
      rw [dyadic, sub_mul, zpow_add₀ two_ne_zero, zpow_natCast]
      field_simp
    calc |x * 2 ^ e - dyadic r (e + k)| = |x / 2 ^ k - r| * 2 ^ (e + k) := by
          rw [hscale, abs_mul, abs_of_pos hunit]
      _ ≤ 1 / 2 * 2 ^ (e + k) := mul_le_mul_of_nonneg_right hcut hunit.le
      _ = 2 ^ (e + k) / 2 := by ring

theorem roundWithAccuracy_of_shifts {s : Sign} {m : Nat} {e e₁ e₂ : Int} {a : Accuracy}
    {em em' : ExtendedMantissa} (hfirst : shiftToTargetExponent Format.binary64 m e a = (em, e₁))
    (hsecond : shiftToTargetExponent Format.binary64 em.roundedMantissa e₁ .exact = (em', e₂))
    (hpos : 0 < em'.mantissa) :
    roundWithAccuracy Format.binary64 s m e a = .finite s em'.mantissa e₂ hpos := by
  rw [roundWithAccuracy, hfirst]
  dsimp only
  rw [hsecond]
  exact dif_neg hpos.ne'

/-- Rounding may carry into one bit more than fits. That bit is a zero and is dropped. -/
theorem roundWithAccuracy_normal {s : Sign} {m : Nat} {e : Int} {a : Accuracy} (hm : 2 ^ 52 ≤ m)
    (hlow : -1022 ≤ m.log2 + e) (hhigh : m.log2 + e ≤ 1022) :
    ∃ m' e' hp, roundWithAccuracy Format.binary64 s m e a = .finite s m' e' hp ∧ Normal m' e' ∧
      dyadic m' e' = dyadic
        (ExtendedMantissa.ofMantissaAndAccuracy m a >>> (m.log2 - 52)).roundedMantissa
        (e + (m.log2 - 52 : Nat)) := by
  obtain ⟨hlog, hfull, hfits⟩ := leading_full hm
  have hbounds := roundedMantissa_bounds (ExtendedMantissa.ofMantissaAndAccuracy m a >>> (m.log2 - 52))
  have hfirst := shiftToTarget_eq a hlog hlow
  rw [mantissa_shiftRight, mantissa_ofMantissaAndAccuracy] at hbounds
  generalize ExtendedMantissa.ofMantissaAndAccuracy m a >>> (m.log2 - 52) = em at hbounds hfirst ⊢
  generalize hr : em.roundedMantissa = r at hbounds ⊢
  have hcarry : r.log2 = 52 ∨ r = 2 ^ 53 := by
    obtain hlt | hmax := Nat.lt_or_ge r (2 ^ 53)
    · exact .inl ((Nat.log2_eq_iff (by omega)).mpr ⟨by omega, hlt⟩)
    · exact .inr (by omega)
  have hdrop : r.log2 ≤ 53 ∧ r / 2 ^ (r.log2 - 52) * 2 ^ (r.log2 - 52) = r := by
    obtain hnone | rfl := hcarry
    · rw [hnone, Nat.sub_self, pow_zero, Nat.div_one, Nat.mul_one]
      exact ⟨by decide, rfl⟩
    · rw [Nat.log2_two_pow]
      norm_num
  obtain ⟨hlog', hfull', hfits'⟩ := leading_full (hfull.trans hbounds.1)
  have hsecond := shiftToTarget_eq (e := e + (m.log2 - 52 : Nat)) .exact hlog' (by omega)
  have hmantissa : (ExtendedMantissa.ofMantissaAndAccuracy r .exact >>> (r.log2 - 52)).mantissa =
      r / 2 ^ (r.log2 - 52) := mantissa_shiftRight _ _
  rw [← hr] at hsecond
  have hround := roundWithAccuracy_of_shifts (s := s) hfirst hsecond
  rw [hr, hmantissa] at hround
  refine ⟨r / 2 ^ (r.log2 - 52), e + (m.log2 - 52 : Nat) + (r.log2 - 52 : Nat), by omega, hround _,
    ⟨hfull', hfits', by omega, by omega⟩, ?_⟩
  rw [← dyadic_shift, hdrop.2]

section

variable {x y : Float} {negative negative' : Bool} {m n : Nat} {e f : Int}

theorem ofFloat_rounded {a : Accuracy} {v : ℚ}
    (hv : CutFrom (.ofMantissaAndAccuracy m a) v) (hm : 2 ^ 52 ≤ m) (hlow : -1022 ≤ m.log2 + e)
    (hhigh : m.log2 + e ≤ 1022) :
    ∃ m' e', Binary.ofFloat (.ofModel (.pack
        (roundWithAccuracy Format.binary64 (signOf negative) m e a))) = .finite negative m' e' ∧
      2 ^ 52 ≤ m' ∧ RoundsTo (v * 2 ^ e) (dyadic m' e') := by
  obtain ⟨m', e', hp, hround, hnormal, hvalue⟩ := roundWithAccuracy_normal (a := a) hm hlow hhigh
  have hcut := roundsTo_shiftRight hv ((mantissa_ofMantissaAndAccuracy m a).symm ▸ hm) e
  rw [mantissa_ofMantissaAndAccuracy, ← hvalue] at hcut
  refine ⟨m', e', ?_, hnormal.full, hcut⟩
  rw [hround, ofFloat_pack hnormal]

theorem fits_of_ofFloat (h : Binary.ofFloat x = .finite negative m e) : m < 2 ^ 53 := by
  obtain ⟨hlt, -⟩ | hnormal := normal_of_ofFloat h
  · exact hlt.trans (by decide)
  · exact hnormal.fits

theorem signOf_mul : signOf negative * signOf negative' = signOf (negative != negative') := by
  cases negative <;> cases negative' <;> rfl

theorem signOf_div : signOf negative / signOf negative' = signOf (negative != negative') := by
  cases negative <;> cases negative' <;> rfl

/-- A product of numbers that fill the precision is rounded, unless it is out of range. -/
theorem ofFloat_mul (hx : Binary.ofFloat x = .finite negative m e)
    (hy : Binary.ofFloat y = .finite negative' n f) (hm : 2 ^ 52 ≤ m) (hn : 2 ^ 52 ≤ n)
    (hlow : -1126 ≤ e + f) (hhigh : e + f ≤ 917) :
    ∃ m' e', Binary.ofFloat (x * y) = .finite (negative != negative') m' e' ∧ 2 ^ 52 ≤ m' ∧
      RoundsTo (dyadic m e * dyadic n f) (dyadic m' e') := by
  obtain ⟨hpx, hux⟩ := unpack_of_ofFloat hx hm
  obtain ⟨hpy, huy⟩ := unpack_of_ofFloat hy hn
  have hmul : x * y = .ofModel (.pack
      (UnpackedFloat.mul Format.binary64 x.toModel.unpack y.toModel.unpack)) := rfl
  have hcore : UnpackedFloat.mul Format.binary64 (.finite (signOf negative) m e hpx)
      (.finite (signOf negative') n f hpy) = roundWithAccuracy Format.binary64
        (signOf negative * signOf negative') (m * n) (e + f) .exact := rfl
  have hproduct : dyadic m e * dyadic n f = (m * n : ℕ) * 2 ^ (e + f) := by
    rw [dyadic, dyadic, zpow_add₀ two_ne_zero]
    push_cast
    ring
  have hlarge : 2 ^ 52 * 2 ^ 52 ≤ m * n := Nat.mul_le_mul hm hn
  have hsmall : m * n < 2 ^ 53 * 2 ^ 53 := Nat.mul_lt_mul'' (fits_of_ofFloat hx) (fits_of_ofFloat hy)
  have hlog : 104 ≤ (m * n).log2 ∧ (m * n).log2 < 106 :=
    ⟨(Nat.le_log2 (by omega)).mpr hlarge, (Nat.log2_lt (by omega)).mpr hsmall⟩
  rw [hmul, hux, huy, hproduct, hcore, signOf_mul]
  exact ofFloat_rounded (a := .exact) rfl (by omega) (by omega) (by omega)

theorem divCore_eq (hm : m.log2 = 52) (hn : n.log2 = 52) (hlow : -1021 ≤ e - f) :
    divCore Format.binary64 m e n f =
      (m * 2 ^ 53 / n, e - f - 53, accuracyOfFraction (m * 2 ^ 53 % n) n) := by
  have htarget : min (e - f)
      (Format.binary64.targetExponent (totalExponent m e - totalExponent n f)) = e - f - 53 := by
    rw [Format.targetExponent, totalExponent, totalExponent, hm, hn, mantissaBits_binary64,
      minExponent_binary64]
    omega
  have hshift : (e - f - (e - f - 53)).toNat = 53 := by omega
  simp only [divCore, htarget, hshift, Nat.shiftLeft_eq]

theorem ofFloat_div (hx : Binary.ofFloat x = .finite negative m e)
    (hy : Binary.ofFloat y = .finite negative' n f) (hm : 2 ^ 52 ≤ m) (hn : 2 ^ 52 ≤ n)
    (hlow : -1021 ≤ e - f) (hhigh : e - f ≤ 1022) :
    ∃ m' e', Binary.ofFloat (x / y) = .finite (negative != negative') m' e' ∧ 2 ^ 52 ≤ m' ∧
      RoundsTo (dyadic m e / dyadic n f) (dyadic m' e') := by
  obtain ⟨hpx, hux⟩ := unpack_of_ofFloat hx hm
  obtain ⟨hpy, huy⟩ := unpack_of_ofFloat hy hn
  have hdiv : x / y = .ofModel (.pack
      (UnpackedFloat.div Format.binary64 x.toModel.unpack y.toModel.unpack)) := rfl
  have hpos : (0 : ℚ) < n := Nat.cast_pos.mpr hpy
  have hquotient : dyadic m e / dyadic n f = ((m * 2 ^ 53 : ℕ) : ℚ) / n * 2 ^ (e - f - 53) := by
    rw [dyadic, dyadic, zpow_sub₀ two_ne_zero, zpow_sub₀ two_ne_zero]
    push_cast
    field_simp
  have hm53 := fits_of_ofFloat hx
  have hn53 := fits_of_ofFloat hy
  have hlarge : 2 ^ 52 ≤ m * 2 ^ 53 / n := by
    rw [Nat.le_div_iff_mul_le hpy]
    omega
  have hsmall : m * 2 ^ 53 / n < 2 ^ 54 := by
    rw [Nat.div_lt_iff_lt_mul hpy]
    omega
  have hlog : 52 ≤ (m * 2 ^ 53 / n).log2 ∧ (m * 2 ^ 53 / n).log2 < 54 :=
    ⟨(Nat.le_log2 (by omega)).mpr hlarge, (Nat.log2_lt (by omega)).mpr hsmall⟩
  have hdivCore : divCore Format.binary64 m e n f = _ :=
    divCore_eq ((Nat.log2_eq_iff (by omega)).mpr ⟨hm, hm53⟩)
      ((Nat.log2_eq_iff (by omega)).mpr ⟨hn, hn53⟩) hlow
  have hcore : UnpackedFloat.div Format.binary64 (.finite (signOf negative) m e hpx)
      (.finite (signOf negative') n f hpy) = roundWithAccuracy Format.binary64
        (signOf negative / signOf negative') (divCore Format.binary64 m e n f).1
        (divCore Format.binary64 m e n f).2.1 (divCore Format.binary64 m e n f).2.2 := rfl
  rw [hdiv, hux, huy, hquotient, hcore, hdivCore, signOf_div]
  dsimp only
  exact ofFloat_rounded (cutFrom_div hpy _) hlarge (by omega) (by omega)

end

end Diagram

import Diagram.Proofs.Number.Rounding

namespace Diagram

def tenthsNumeral (negative : Bool) (n : Nat) : String :=
  (if negative then "-" else "") ++ toString (n / 10) ++ "." ++ toString (n % 10)

namespace Binary

variable {negative : Bool} {m : Nat} {e : Int}

theorem oneDecimal_eq : (finite negative m e).oneDecimal =
    tenthsNumeral negative (roundRatio (10 * (ratio m e).1) (ratio m e).2) := by
  generalize hn : roundRatio (10 * (ratio m e).1) (ratio m e).2 = n
  have hdigit : ∀ k < 10, String.ofList [Char.ofNat (48 + k)] = toString k := by decide
  have hlast : (Fin.ofNat 10 n).val = n % 10 := rfl
  have hsplit : (finite negative m e).oneDecimal = (NumberLayout.split negative n 1 none).text false :=
    congrArg (fun n ↦ (NumberLayout.split negative n 1 none).text false) hn
  rw [hsplit, tenthsNumeral, ← hdigit (n % 10) (Nat.mod_lt _ (by decide)), ← hlast,
    String.append_assoc]
  exact String.append_empty

end Binary

theorem printed_eq (negative : Bool) (m : Nat) (e : Int) :
    (if (Binary.finite negative m e).isZero then "0.0" else (Binary.finite negative m e).oneDecimal) =
      tenthsNumeral (decide ((Binary.finite negative m e).value < 0))
        (roundRatio (10 * (ratio m e).1) (ratio m e).2) := by
  rw [Binary.oneDecimal_eq]
  by_cases hm : m = 0
  · subst hm
    have hzero : roundRatio (10 * (ratio 0 e).1) (ratio 0 e).2 = 0 := by
      have hnum : 10 * (ratio 0 e).1 = 0 := by
        rw [ratio, Nat.zero_mul, Nat.mul_zero]
      have hpos := ratio_pos 0 e
      rw [hnum, roundRatio, Nat.zero_mod, Nat.zero_div]
      exact if_pos hpos
    have hsign : ¬ (Binary.finite negative 0 e).value < 0 := fun h ↦ (Binary.value_neg_iff.mp h).2 rfl
    rw [hzero, decide_eq_false hsign]
    rfl
  · have hsign : decide ((Binary.finite negative m e).value < 0) = negative := by
      rw [Bool.eq_iff_iff, decide_eq_true_iff, Binary.value_neg_iff]
      exact and_iff_left hm
    rw [hsign, Binary.isZero, if_neg (by simpa using hm)]

section

variable {x : Float} {negative : Bool} {m : Nat} {e : Int}

theorem roundRatio_tenths (m : Nat) (e : Int) :
    |10 * dyadic m e - roundRatio (10 * (ratio m e).1) (ratio m e).2| ≤ 1 / 2 := by
  have h := roundRatio_near (ratio_pos m e) (10 * (ratio m e).1)
  rwa [Nat.cast_mul, mul_div_assoc, ratio_value, Nat.cast_ofNat] at h

theorem natAbs_tenths (negative : Bool) (m : Nat) (e : Int) :
    ((tenths (Binary.finite negative m e).value).natAbs : ℤ) = round (10 * dyadic m e) := by
  have hnonneg : 0 ≤ tenths (dyadic m e) := tenths_zero ▸ tenths_mono (dyadic_nonneg m e)
  rw [← tenths_of_nonneg (dyadic_nonneg m e)]
  cases negative with
  | false => exact Int.natAbs_of_nonneg hnonneg
  | true =>
    rw [Binary.value, if_pos rfl, tenths_neg, Int.natAbs_neg]
    exact Int.natAbs_of_nonneg hnonneg

/-- Nothing is lost where a number is not halfway: rounded to even or not, its tenth is the same. -/
theorem tenthsText_plain (hx : Binary.ofFloat x = .finite negative m e)
    (hhalf : (Binary.ofFloat x).isHalfTenth = false) :
    tenthsText x = tenthsNumeral (decide ((Binary.ofFloat x).value < 0))
      (tenths (Binary.ofFloat x).value).natAbs := by
  have hnear := roundRatio_tenths m e
  rw [tenthsText, hhalf, hx]
  refine (printed_eq negative m e).trans (congrArg _ ?_)
  rw [hx] at hhalf
  generalize roundRatio (10 * (ratio m e).1) (ratio m e).2 = n at hnear
  have hstrict : |10 * dyadic m e - (n : ℤ)| < 1 / 2 := by
    refine lt_of_le_of_ne (by exact_mod_cast hnear) fun heq ↦ ?_
    have hodd : ∃ k : ℤ, 20 * dyadic m e = 2 * k + 1 := by
      obtain heq | heq := eq_or_eq_neg_of_abs_eq heq
      · refine ⟨n, ?_⟩
        linarith
      · refine ⟨n - 1, ?_⟩
        push_cast at heq ⊢
        linarith
    have := Binary.isHalfTenth_iff_value.mpr (Binary.halfway_iff.mp
      ((Binary.odd_value_iff negative 20).mpr hodd))
    rw [this] at hhalf
    cases hhalf
  have habs := natAbs_tenths negative m e
  rw [round_of_near hstrict] at habs
  omega

theorem ofFloat_ten : Binary.ofFloat 10.0 = .finite false (5 * 2 ^ 50) (-49) := by decide +kernel

theorem dyadic_ten : dyadic (5 * 2 ^ 50) (-49) = 10 := by
  rw [dyadic]
  norm_num

theorem full_of_quarter (hx : Binary.ofFloat x = .finite negative m e) (h : 1 ≤ 4 * dyadic m e) :
    2 ^ 52 ≤ m ∧ -1074 ≤ e := by
  obtain ⟨hm, rfl⟩ | hnormal := normal_of_ofFloat hx
  · have htiny : (2 : ℚ) ^ (-1074 : ℤ) ≤ 2 ^ (-54 : ℤ) := zpow_le_zpow_right₀ one_le_two (by decide)
    have hm' : (m : ℚ) < 2 ^ 52 := by exact_mod_cast hm
    have hsmall : dyadic m (-1074) < 1 / 4 := by
      calc dyadic m (-1074) ≤ m * 2 ^ (-54 : ℤ) := mul_le_mul_of_nonneg_left htiny m.cast_nonneg
        _ < 2 ^ 52 * 2 ^ (-54 : ℤ) := mul_lt_mul_of_pos_right hm' (zpow_pos two_pos _)
        _ = 1 / 4 := by norm_num
    linarith
  · exact ⟨hnormal.full, hnormal.least⟩

theorem exponent_neg (hm : 2 ^ 52 ≤ m) (h : dyadic m e < 2 ^ 52) : e < 0 := by
  by_contra hge
  have hone : (1 : ℚ) ≤ 2 ^ e := one_le_zpow₀ one_le_two (not_lt.mp hge)
  have hm' : (2 : ℚ) ^ 52 ≤ m := by exact_mod_cast hm
  have : (2 : ℚ) ^ 52 * 1 ≤ dyadic m e := mul_le_mul hm' hone zero_le_one m.cast_nonneg
  linarith

/-- Ten times a number that is halfway between two tenths has no more bits than fit, unless it is too
large for a half. -/
theorem ofFloat_tenfold {k : Nat} (hx : Binary.ofFloat x = .finite negative m e)
    (hk : 4 * dyadic m e = 2 * k + 1) (hlt : 10 * dyadic m e < 2 ^ 52) :
    ∃ m' e', Binary.ofFloat (x * 10.0) = .finite negative m' e' ∧ dyadic m' e' = 10 * dyadic m e := by
  obtain ⟨hfull, hleast⟩ := full_of_quarter hx (by rw [hk]; linarith [k.cast_nonneg (α := ℚ)])
  have he := exponent_neg hfull (by linarith [dyadic_nonneg m e])
  obtain ⟨m', e', hmul, -, hrounds⟩ := ofFloat_mul hx ofFloat_ten hfull (by decide) (by omega)
    (by omega)
  have hhalves : dyadic m e * dyadic (5 * 2 ^ 50) (-49) = dyadic (5 * (2 * k + 1)) (-1) := by
    rw [dyadic_ten, dyadic, dyadic] at *
    push_cast
    norm_num
    linarith
  have hbits : 5 * (2 * k + 1) < 2 ^ 53 := by
    have : (5 * (2 * k + 1) : ℚ) < 2 ^ 53 := by linarith
    exact_mod_cast this
  have hexact := hrounds.exact hhalves hbits
  rw [Bool.bne_false] at hmul
  rw [dyadic_ten, mul_comm] at hexact
  exact ⟨m', e', hmul, hexact⟩

theorem ofFloat_tenth (negative : Bool) {n : Nat} (hpos : 0 < n) (hlt : n < 2 ^ 52) :
    ∃ m' e', Binary.ofFloat ((Binary.finite negative n 0).toFloat / 10.0) = .finite negative m' e' ∧
      |10 * dyadic m' e' - n| < 1 / 2 := by
  obtain ⟨m, e, hwhole, hfull, hleast, hgreatest, hvalue⟩ :=
    ofFloat_whole negative hpos (hlt.trans (by decide))
  obtain ⟨m', e', hdiv, -, hrounds⟩ := ofFloat_div hwhole ofFloat_ten hfull (by decide) (by omega)
    (by omega)
  rw [Bool.bne_false] at hdiv
  refine ⟨m', e', hdiv, ?_⟩
  have herror := hrounds.relative
  have hlt' : (n : ℚ) < 2 ^ 52 := by exact_mod_cast hlt
  rw [hvalue, dyadic_ten, abs_le] at herror
  rw [abs_lt]
  constructor <;> linarith

/-- A number that is halfway between two tenths is moved to the one farther from zero, and stays
nearest to it. -/
theorem tenthsText_moved (hx : Binary.ofFloat x = .finite negative m e)
    (hhalf : (Binary.ofFloat x).isHalfTenth = true) (hlt : 10 * dyadic m e < 2 ^ 52) :
    tenthsText x = tenthsNumeral (decide ((Binary.ofFloat x).value < 0))
      (tenths (Binary.ofFloat x).value).natAbs := by
  have habs := natAbs_tenths negative m e
  rw [tenthsText, hhalf]
  rw [hx] at hhalf ⊢
  obtain ⟨k, hk⟩ := Binary.isHalfTenth_iff.mp hhalf
  obtain ⟨m', e', hmul, hvalue⟩ := ofFloat_tenfold hx hk hlt
  have hround : round (10 * dyadic m e) = (5 * k + 3 : ℕ) := by
    rw [round_eq, Int.floor_eq_iff]
    push_cast
    constructor <;> linarith
  have hfits : 5 * k + 3 < 2 ^ 52 := by
    have : (5 * (2 * k + 1) : ℚ) < 2 ^ 53 := by linarith
    have hbits : 5 * (2 * k + 1) < 2 ^ 53 := by exact_mod_cast this
    omega
  have hmagnitude : Binary.roundMagnitude m' e' = 5 * k + 3 := by
    have := roundMagnitude_eq m' e'
    rw [hvalue, hround] at this
    exact_mod_cast this
  obtain ⟨m'', e'', hdiv, hnear⟩ := ofFloat_tenth negative (Nat.succ_pos (5 * k + 2)) hfits
  have hmoved : Binary.ofFloat ((Binary.ofFloat (x * 10.0)).round.toFloat / 10.0) =
      .finite negative m'' e'' := by
    rw [hmul, Binary.round, hmagnitude]
    exact hdiv
  have hsign : (Binary.finite negative m'' e'').value < 0 ↔ (Binary.finite negative m e).value < 0 := by
    have hk0 : (0 : ℚ) ≤ k := k.cast_nonneg
    have hlow := (abs_lt.mp hnear).1
    push_cast at hlow
    have hm : m ≠ 0 := ne_zero_of_dyadic_pos (by linarith : 0 < dyadic m e)
    have hm'' : m'' ≠ 0 := ne_zero_of_dyadic_pos (by linarith : 0 < dyadic m'' e'')
    rw [Binary.value_neg_iff, Binary.value_neg_iff, and_iff_left hm, and_iff_left hm'']
  have hcount : roundRatio (10 * (ratio m'' e'').1) (ratio m'' e'').2 =
      (tenths (Binary.finite negative m e).value).natAbs := by
    rw [eq_of_near hnear (roundRatio_tenths m'' e'')]
    omega
  simp only [if_true, hmoved]
  rw [printed_eq, hcount, decide_eq_decide.mpr hsign]

end

def exactValue (x : Float) : ℚ := (Binary.ofFloat x).value

/-- A finite number that is small enough for its tenfold to be exact, should it be halfway between two
tenths. -/
structure Tenthable (x : Float) : Prop where
  finite : (Binary.ofFloat x).isFinite = true
  fits : (∃ k : ℤ, 4 * exactValue x = 2 * k + 1) → 10 * |exactValue x| < 2 ^ 52

theorem Tenthable.text_eq {x : Float} (hx : Tenthable x) :
    tenthsText x = tenthsNumeral (decide (exactValue x < 0)) (tenths (exactValue x)).natAbs := by
  obtain ⟨hfinite, hfits⟩ := hx
  cases h : Binary.ofFloat x with
  | nan | infinite =>
    rw [h] at hfinite
    cases hfinite
  | finite negative m e =>
    cases hhalf : (Binary.ofFloat x).isHalfTenth with
    | false => exact tenthsText_plain h hhalf
    | true =>
      refine tenthsText_moved h hhalf ?_
      rw [exactValue, h] at hfits
      rw [h] at hhalf
      rw [← Binary.abs_value negative m e]
      exact hfits (Binary.isHalfTenth_iff_value.mp hhalf)

/-- A text with one decimal, which writes the number of tenths that is nearest to a value. Halfway
between two tenths, where only odd multiples of a quarter are, that is the one farther from zero. -/
structure WritesTenths (v : ℚ) (s : String) (t : ℤ) : Prop where
  text_eq : s = (if v < 0 then "-" else "") ++ toString (t.natAbs / 10) ++ "." ++
    toString (t.natAbs % 10)
  sign_eq : t = if v < 0 then -(t.natAbs : ℤ) else t.natAbs
  nearest (u : ℤ) : |10 * v - t| ≤ |10 * v - u|
  farther (u : ℤ) : u ≠ t → |10 * v - u| = |10 * v - t| → |u| < |t|
  halfway_iff : (∃ u : ℤ, u ≠ t ∧ |10 * v - u| = |10 * v - t|) ↔ ∃ k : ℤ, 4 * v = 2 * k + 1

theorem Tenthable.writes {x : Float} (hx : Tenthable x) :
    WritesTenths (exactValue x) (tenthsText x) (tenths (exactValue x)) where
  text_eq := by
    rw [hx.text_eq, tenthsNumeral]
    simp only [decide_eq_true_iff]
  sign_eq := tenths_sign _
  nearest := tenths_nearest _
  farther u hu h := (tenths_tie hu h).1
  halfway_iff := by
    rw [tenths_tie_iff]
    have hfinite := hx.finite
    cases h : Binary.ofFloat x with
    | nan | infinite =>
      rw [h] at hfinite
      cases hfinite
    | finite negative m e =>
      rw [exactValue, h]
      exact Binary.halfway_iff

/-- Coordinates are printed as their nearest tenths, each as its exact value says, in the same order,
and two that differ only in the sign with texts that differ only in the sign. -/
theorem tenthsText_nearest {x y : Float} (hx : Tenthable x) (hy : Tenthable y) :
    ∃ t u, WritesTenths (exactValue x) (tenthsText x) t ∧ WritesTenths (exactValue y) (tenthsText y) u ∧
      (exactValue x ≤ exactValue y → t ≤ u) ∧
      (exactValue y = -exactValue x → exactValue x < 0 → tenthsText x = "-" ++ tenthsText y) := by
  refine ⟨_, _, hx.writes, hy.writes, tenths_mono, fun hmirror hneg ↦ ?_⟩
  have hpos : ¬ exactValue y < 0 := by
    rw [hmirror]
    linarith
  rw [hx.text_eq, hy.text_eq, hmirror, tenths_neg, Int.natAbs_neg, ← hmirror, decide_eq_true hneg,
    decide_eq_false hpos]
  simp only [tenthsNumeral, if_true, Bool.false_eq_true, if_false, String.empty_append,
    String.append_assoc]

theorem tenthsText_nearest_half : tenthsText (-2.75) = "-" ++ tenthsText 2.75 ∧
    ∃ t, WritesTenths (-(11 / 4)) "-2.8" t := by
  have hx : Binary.ofFloat (-2.75) = .finite true (11 * 2 ^ 49) (-51) := by decide +kernel
  have hy : Binary.ofFloat 2.75 = .finite false (11 * 2 ^ 49) (-51) := by decide +kernel
  have hvx : exactValue (-2.75) = -(11 / 4) := by
    rw [exactValue, hx, Binary.value, dyadic]
    norm_num
  have hvy : exactValue 2.75 = 11 / 4 := by
    rw [exactValue, hy, Binary.value, dyadic]
    norm_num
  have htext : tenthsText (-2.75) = "-2.8" := by decide +kernel
  obtain ⟨t, u, ht, -, -, hsign⟩ := tenthsText_nearest (x := -2.75) (y := 2.75)
    ⟨by rw [hx]; rfl, fun _ ↦ by rw [hvx]; norm_num⟩ ⟨by rw [hy]; rfl, fun _ ↦ by rw [hvy]; norm_num⟩
  rw [hvx, htext] at ht
  exact ⟨hsign (by rw [hvx, hvy, neg_neg]) (by rw [hvx]; norm_num), t, ht⟩

/-- The tenfold of a larger half is rounded before it is taken apart again. -/
theorem tenthsText_large_half :
    exactValue 500000000000000.25 = 500000000000000 + 1 / 4 ∧
      tenths (500000000000000 + 1 / 4) = 5000000000000003 ∧
      tenthsText 500000000000000.25 = "500000000000000.2" := by
  have hx : Binary.ofFloat 500000000000000.25 =
      .finite false (8000000000000004 : Nat) (-4) := by decide +kernel
  refine ⟨?_, ?_, by decide +kernel⟩
  · rw [exactValue, hx, Binary.value, dyadic]
    norm_num
  · rw [tenths_of_nonneg (by norm_num), round_eq, Int.floor_eq_iff]
    norm_num

end Diagram

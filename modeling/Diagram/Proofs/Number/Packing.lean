import Diagram.Proofs.Number.Valuing

namespace Diagram

open Float.Model Float.Model.UnpackedFloat

/-- A significand that fills the precision, with an exponent that is in range. -/
structure Normal (m : Nat) (e : Int) : Prop where
  full : 2 ^ 52 ≤ m
  fits : m < 2 ^ 53
  least : -1074 ≤ e
  greatest : e ≤ 971

def signOf (negative : Bool) : Sign := if negative then .negative else .positive

theorem toNat_packComponents (s : Sign) (exponent : BitVec 11) (mantissa : BitVec 52) :
    (packComponents Format.binary64 s exponent mantissa).toNat =
      s.toBitVec.toNat * 2 ^ 63 + exponent.toNat * 2 ^ 52 + mantissa.toNat := by
  have happend : (packComponents Format.binary64 s exponent mantissa).toNat =
      ((s.toBitVec ++ exponent) ++ mantissa).toNat := rfl
  rw [happend, BitVec.toNat_append, ← Nat.shiftLeft_add_eq_or_of_lt mantissa.isLt,
    BitVec.toNat_append, ← Nat.shiftLeft_add_eq_or_of_lt exponent.isLt, Nat.shiftLeft_eq,
    Nat.shiftLeft_eq]
  ring

theorem toNat_unpackMantissa (b : BitVec 64) :
    (@unpackMantissa Format.binary64 b).toNat = b.toNat % 2 ^ 52 := by
  have h : (@unpackMantissa Format.binary64 b).toNat = (b.extractLsb 51 0).toNat := rfl
  rw [h, BitVec.extractLsb_toNat, Nat.shiftRight_zero]

theorem toNat_unpackExponent (b : BitVec 64) :
    (@unpackExponent Format.binary64 b).toNat = b.toNat / 2 ^ 52 % 2 ^ 11 := by
  have h : (@unpackExponent Format.binary64 b).toNat = (b.extractLsb 62 52).toNat := rfl
  rw [h, BitVec.extractLsb_toNat, Nat.shiftRight_eq_div_pow]

theorem toNat_unpackSign (b : BitVec 64) :
    (@unpackSign Format.binary64 b).toNat = b.toNat / 2 ^ 63 % 2 := by
  have h : (@unpackSign Format.binary64 b).toNat = (b.extractLsb 63 63).toNat := rfl
  rw [h, BitVec.extractLsb_toNat, Nat.shiftRight_eq_div_pow]

theorem ofBitVec_unpackSign (b : BitVec 64) :
    Sign.ofBitVec (@unpackSign Format.binary64 b) = signOf (b.toNat / 2 ^ 63 % 2 == 1) := by
  have hsign := toNat_unpackSign b
  rw [← hsign, Sign.ofBitVec]
  split
  · next hzero =>
    rw [hzero]
    rfl
  · next hone =>
    have hlt := (@unpackSign Format.binary64 b).isLt
    have hne : (@unpackSign Format.binary64 b).toNat ≠ 0 := fun h ↦ hone (BitVec.eq_of_toNat_eq h)
    have h1 : (@unpackSign Format.binary64 b).toNat = 1 := by omega
    rw [h1]
    rfl

theorem unit_double : twoPow BinaryFormat.double.fractionBits = 2 ^ 52 := by decide

theorem exponentRange_double : BinaryFormat.double.exponentRange = 2 ^ 11 := by decide

theorem leastExponent_double : BinaryFormat.double.leastExponent = -1074 := by decide

theorem decode_fields {s exponent fraction : Nat} (hs : s < 2) (hlow : 0 < exponent)
    (hhigh : exponent < 2047) (hf : fraction < 2 ^ 52) :
    BinaryFormat.double.decode (s * 2 ^ 63 + exponent * 2 ^ 52 + fraction) =
      .finite (s == 1) (2 ^ 52 + fraction) (exponent - 1075) := by
  have hfraction : (s * 2 ^ 63 + exponent * 2 ^ 52 + fraction) % 2 ^ 52 = fraction := by omega
  have hexponent : (s * 2 ^ 63 + exponent * 2 ^ 52 + fraction) / 2 ^ 52 % 2 ^ 11 = exponent := by
    omega
  have hsign : (s * 2 ^ 63 + exponent * 2 ^ 52 + fraction) / (2 ^ 52 * 2 ^ 11) % 2 = s := by omega
  simp only [BinaryFormat.decode, unit_double, exponentRange_double, leastExponent_double, hfraction,
    hexponent, hsign]
  rw [if_neg (by omega), if_neg (by omega)]
  congr 1
  omega

structure Fields (bits : Nat) (negative : Bool) (m : Nat) (e : Int) : Prop where
  sign_eq : negative = (bits / 2 ^ 63 % 2 == 1)
  significand_eq : m = 2 ^ 52 + bits % 2 ^ 52
  exponent_eq : e = (bits / 2 ^ 52 % 2 ^ 11 : Nat) - 1075
  field_pos : 0 < bits / 2 ^ 52 % 2 ^ 11
  field_lt : bits / 2 ^ 52 % 2 ^ 11 < 2047

theorem decode_finite {bits : Nat} {negative : Bool} {m : Nat} {e : Int}
    (h : BinaryFormat.double.decode bits = .finite negative m e) :
    (m < 2 ^ 52 ∧ e = -1074) ∨ (Normal m e ∧ Fields bits negative m e) := by
  have hfraction : bits % 2 ^ 52 < 2 ^ 52 := Nat.mod_lt _ (by decide)
  have hfield : bits / 2 ^ 52 % 2 ^ 11 < 2 ^ 11 := Nat.mod_lt _ (by decide)
  simp only [BinaryFormat.decode, unit_double, exponentRange_double, leastExponent_double] at h
  split at h
  · split at h <;> cases h
  · split at h
    · cases h
      exact .inl ⟨hfraction, rfl⟩
    · cases h
      refine .inr ⟨⟨?_, ?_, ?_, ?_⟩, rfl, rfl, ?_, ?_, ?_⟩ <;> omega

theorem unpack_of_decode {b : BitVec 64} {negative : Bool} {m : Nat} {e : Int}
    (h : BinaryFormat.double.decode b.toNat = .finite negative m e) (hm : 2 ^ 52 ≤ m) :
    ∃ hp, UnpackedFloat.unpack Format.binary64 b = .finite (signOf negative) m e hp := by
  obtain ⟨hlt, -⟩ | ⟨-, hsign, hmantissa, he, hlow, hhigh⟩ := decode_finite h
  · omega
  have hexponent := toNat_unpackExponent b
  have hfinite : @unpackExponent Format.binary64 b ≠ -BitVec.ofNat Format.binary64.exponentBits 1 := by
    intro heq
    rw [heq] at hexponent
    exact absurd hexponent hhigh.ne'
  have hnormal : @unpackExponent Format.binary64 b ≠ BitVec.ofNat Format.binary64.exponentBits 0 := by
    intro heq
    rw [heq] at hexponent
    exact absurd hexponent hlow.ne
  have hbias : (Format.binary64.exponentBias : ℤ) + Format.binary64.mantissaBitsWithoutImplicit =
      1075 := rfl
  have hpos : 0 < m := by omega
  refine ⟨hpos, ?_⟩
  delta UnpackedFloat.unpack
  dsimp only
  rw [if_neg hfinite, if_neg hnormal, UnpackedFloat.finite.injEq]
  refine ⟨?_, ?_, ?_⟩
  · exact (ofBitVec_unpackSign b).trans (congrArg signOf hsign.symm)
  · have happend : (1#1 ++ @unpackMantissa Format.binary64 b).toNat =
        2 ^ 52 + (@unpackMantissa Format.binary64 b).toNat := by
      rw [BitVec.toNat_append, ← Nat.shiftLeft_add_eq_or_of_lt (BitVec.isLt _)]
      rfl
    rw [happend, toNat_unpackMantissa, hmantissa]
  · rw [hexponent, hbias, he]

theorem decode_pack (negative : Bool) {m : Nat} {e : Int} (h : Normal m e) (hp : 0 < m) :
    BinaryFormat.double.decode
        (UnpackedFloat.pack Format.binary64 (.finite (signOf negative) m e hp)).toNat =
      .finite negative m e := by
  obtain ⟨hfull, hfits, hleast, hgreatest⟩ := h
  have hlog : m.log2 + 1 = Format.binary64.mantissaBits := by
    have h52 : m.log2 = 52 := (Nat.log2_eq_iff hp.ne').mpr ⟨hfull, hfits⟩
    rw [h52]
    rfl
  have hbias : e + Format.binary64.exponentBias + Format.binary64.mantissaBitsWithoutImplicit =
      e + 1075 := Int.add_assoc e 1023 52
  have hrange : ¬ 2 ^ Format.binary64.exponentBits ≤ (e + 1075).toNat + 1 := by
    have hsize : 2 ^ Format.binary64.exponentBits = 2048 := rfl
    omega
  have hmantissa : (BitVec.ofNat 52 m).toNat = m - 2 ^ 52 := by
    rw [BitVec.toNat_ofNat]
    omega
  have hexponent : (BitVec.ofNat 11 (e + 1075).toNat).toNat = (e + 1075).toNat := by
    rw [BitVec.toNat_ofNat]
    omega
  have hsign : (signOf negative).toBitVec.toNat < 2 := (signOf negative).toBitVec.isLt
  have hnegative : ((signOf negative).toBitVec.toNat == 1) = negative := by
    cases negative <;> rfl
  delta UnpackedFloat.pack
  dsimp only
  rw [hbias, if_neg hrange, if_pos hlog, toNat_packComponents, hmantissa, hexponent,
    decode_fields hsign (by omega) (by omega) (by omega), hnegative]
  have hm : 2 ^ 52 + (m - 2 ^ 52) = m := by omega
  have he : ((e + 1075).toNat : ℤ) - 1075 = e := by omega
  rw [hm, he]

theorem ofFloat_ofBits {bits : Nat} {negative : Bool} {m : Nat} {e : Int} (hbits : bits < 2 ^ 64)
    (h : BinaryFormat.double.decode bits = .finite negative m e) (hm : 2 ^ 52 ≤ m) :
    Binary.ofFloat (.ofBits (.ofNat bits)) = .finite negative m e := by
  have hword : (UInt64.ofNat bits).toBitVec.toNat = bits := UInt64.toNat_ofNat_of_lt' hbits
  rw [← hword] at h
  obtain ⟨hp, hunpack⟩ := unpack_of_decode h hm
  obtain ⟨hlt, -⟩ | ⟨hnormal, -⟩ := decode_finite h
  · omega
  have hpack := decode_pack negative hnormal hp
  rwa [← hunpack] at hpack

theorem ofFloat_pack {negative : Bool} {m : Nat} {e : Int} (h : Normal m e) (hp : 0 < m) :
    Binary.ofFloat (.ofModel (.pack (.finite (signOf negative) m e hp))) =
      .finite negative m e := decode_pack negative h hp

theorem unpack_of_ofFloat {x : Float} {negative : Bool} {m : Nat} {e : Int}
    (h : Binary.ofFloat x = .finite negative m e) (hm : 2 ^ 52 ≤ m) :
    ∃ hp, x.toModel.unpack = .finite (signOf negative) m e hp := unpack_of_decode h hm

theorem normal_of_ofFloat {x : Float} {negative : Bool} {m : Nat} {e : Int}
    (h : Binary.ofFloat x = .finite negative m e) : (m < 2 ^ 52 ∧ e = -1074) ∨ Normal m e :=
  (decode_finite h).imp_right And.left

theorem roundRatio_one (n : Nat) : roundRatio n 1 = n := by
  simp only [roundRatio, Nat.div_one, Nat.mod_one]
  rfl

theorem floorLog_one {n : Nat} (hn : n ≠ 0) : BinaryFormat.floorLog n 1 = n.log2 := by
  have hone : Nat.log2 1 = 0 := rfl
  have hfits : 1 * twoPow n.log2 ≤ n := by
    rw [one_mul]
    exact Nat.log2_self_le hn
  simp only [BinaryFormat.floorLog, hone, Nat.cast_zero, sub_zero, Nat.cast_nonneg, if_true,
    Int.toNat_natCast, hfits, decide_true]

/-- The bits of a whole number, moved to the front of the precision. -/
theorem leading_bits {n : Nat} (hpos : 0 < n) (hlt : n < 2 ^ 53) :
    n.log2 ≤ 52 ∧ 2 ^ 52 ≤ n * 2 ^ (52 - n.log2) ∧ n * 2 ^ (52 - n.log2) < 2 ^ 53 := by
  have hlog : n.log2 ≤ 52 := by
    have := (Nat.log2_lt hpos.ne').mpr hlt
    omega
  refine ⟨hlog, ?_, ?_⟩
  · calc 2 ^ 52 = 2 ^ n.log2 * 2 ^ (52 - n.log2) := by rw [← pow_add, Nat.add_sub_cancel' hlog]
      _ ≤ n * 2 ^ (52 - n.log2) := Nat.mul_le_mul_right _ (Nat.log2_self_le hpos.ne')
  · calc n * 2 ^ (52 - n.log2) < 2 ^ (n.log2 + 1) * 2 ^ (52 - n.log2) :=
          Nat.mul_lt_mul_of_pos_right Nat.lt_log2_self (Nat.two_pow_pos _)
      _ = 2 ^ 53 := by
        rw [← pow_add]
        congr 1
        omega

theorem encode_whole (negative : Bool) {n : Nat} (hpos : 0 < n) (hlt : n < 2 ^ 53) :
    BinaryFormat.double.encode (.finite negative n 0) =
      (if negative then 1 else 0) * 2 ^ 63 + (n.log2 + 1023) * 2 ^ 52 +
        (n * 2 ^ (52 - n.log2) - 2 ^ 52) := by
  obtain ⟨hlog, hlow, hhigh⟩ := leading_bits hpos hlt
  have hratio : ratio n 0 = (n, 1) := by
    rw [ratio]
    exact congrArg (·, 1) (Nat.mul_one n)
  have hexponent : max ((n.log2 : ℤ) - 52) (-1074) = n.log2 - 52 := by omega
  have hsignificand : (if (0 : ℤ) ≤ n.log2 - 52 then roundRatio n (1 * twoPow ((n.log2 : ℤ) - 52).toNat)
      else roundRatio (n * twoPow (-((n.log2 : ℤ) - 52)).toNat) 1) = n * 2 ^ (52 - n.log2) := by
    split
    · next hfull =>
      have hzero : ((n.log2 : ℤ) - 52).toNat = 0 ∧ 52 - n.log2 = 0 := by omega
      rw [hzero.1, hzero.2]
      exact (roundRatio_one n).trans (Nat.mul_one n).symm
    · have hshift : (-((n.log2 : ℤ) - 52)).toNat = 52 - n.log2 := by omega
      rw [hshift, roundRatio_one, twoPow_eq]
  have hsign : BinaryFormat.double.signBit negative = (if negative then 1 else 0) * 2 ^ 63 := by
    cases negative <;> rfl
  have hlimit : BinaryFormat.double.infinityBits = 2047 * 2 ^ 52 := rfl
  have hwidth : (BinaryFormat.double.fractionBits : ℤ) = 52 := rfl
  simp only [BinaryFormat.encode, BinaryFormat.nearest, hratio, hpos.ne', if_false,
    floorLog_one hpos.ne', hwidth, leastExponent_double, hexponent, hsignificand, hsign, hlimit,
    unit_double]
  generalize n * 2 ^ (52 - n.log2) = m at *
  generalize n.log2 = l at *
  have hfield : ((l : ℤ) - 52 - -1074).toNat = l + 1022 := by omega
  have hcarry : (l + 1022) * 2 ^ 52 + m = (l + 1023) * 2 ^ 52 + (m - 2 ^ 52) := by
    rw [Nat.succ_mul (l + 1022), Nat.add_assoc, Nat.add_sub_cancel' hlow]
  have hfinite : (l + 1023) * 2 ^ 52 + (m - 2 ^ 52) ≤ 2047 * 2 ^ 52 := by
    omega
  rw [hfield, hcarry, Nat.min_eq_left hfinite, Nat.add_assoc]

theorem ofFloat_whole (negative : Bool) {n : Nat} (hpos : 0 < n) (hlt : n < 2 ^ 53) :
    ∃ m e, Binary.ofFloat (Binary.finite negative n 0).toFloat = .finite negative m e ∧
      2 ^ 52 ≤ m ∧ -52 ≤ e ∧ e ≤ 0 ∧ dyadic m e = n := by
  obtain ⟨hlog, hlow, hhigh⟩ := leading_bits hpos hlt
  refine ⟨n * 2 ^ (52 - n.log2), n.log2 - 52, ?_, hlow, by omega, by omega, ?_⟩
  · have hs : (if negative then 1 else 0) < 2 ∧ ((if negative then 1 else 0) == 1) = negative := by
      cases negative <;> decide
    have he : ((n.log2 + 1023 : ℕ) : ℤ) - 1075 = n.log2 - 52 := by omega
    have hdecode : BinaryFormat.double.decode (BinaryFormat.double.encode (.finite negative n 0)) =
        .finite negative (n * 2 ^ (52 - n.log2)) (n.log2 - 52) := by
      rw [encode_whole negative hpos hlt, decode_fields hs.1 (by omega) (by omega) (by omega), hs.2,
        Nat.add_sub_cancel' hlow, he]
    refine ofFloat_ofBits ?_ hdecode hlow
    rw [encode_whole negative hpos hlt]
    omega
  · rw [dyadic_shift, ← dyadic_nat n]
    congr 1
    omega

end Diagram

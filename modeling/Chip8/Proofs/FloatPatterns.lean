import Mathlib

/-!
# Patterns of numbers of 32 bits

The patterns from zero to infinity stand for themselves: a number made of one of them has it as its pattern, and is
greater than zero exactly if the pattern is not 0. Patterns with a sign, and those of no number, are left out.
-/

namespace Chip8.FloatPattern
set_option autoImplicit false

open Float.Model (Format UnpackedFloat)
open Float.Model.UnpackedFloat

theorem append_toNat {k l : Nat} (a : BitVec k) (b : BitVec l) : (a ++ b).toNat = a.toNat * 2 ^ l + b.toNat := by
  rw [BitVec.toNat_append, ← Nat.shiftLeft_add_eq_or_of_lt b.isLt, Nat.shiftLeft_eq]

theorem packComponents_toNat (exponent : BitVec 8) (mantissa : BitVec 23) :
    (packComponents .binary32 .positive exponent mantissa).toNat = exponent.toNat * 2 ^ 23 + mantissa.toNat := by
  have hfields := append_toNat (Sign.positive.toBitVec ++ exponent) mantissa
  rw [append_toNat Sign.positive.toBitVec exponent] at hfields
  refine hfields.trans ?_
  simp only [Sign.toBitVec, BitVec.toNat_ofNat, Nat.zero_mod, Nat.zero_mul, Nat.zero_add]

section Fields
variable (v : BitVec 32)

theorem unpackMantissa_toNat : (@unpackMantissa .binary32 v).toNat = v.toNat % 2 ^ 23 := by
  rw [unpackMantissa, BitVec.toNat_cast, BitVec.extractLsb_toNat, Nat.shiftRight_zero]
  rfl

theorem unpackExponent_toNat : (@unpackExponent .binary32 v).toNat = v.toNat / 2 ^ 23 % 2 ^ 8 := by
  rw [unpackExponent, BitVec.toNat_cast, BitVec.extractLsb_toNat, Nat.shiftRight_eq_div_pow]
  rfl

theorem unpackSign_toNat : (@unpackSign .binary32 v).toNat = v.toNat / 2 ^ 31 % 2 := by
  rw [unpackSign, BitVec.toNat_cast, BitVec.extractLsb_toNat, Nat.shiftRight_eq_div_pow]
  rfl

theorem exponent_ones_iff : @unpackExponent .binary32 v = -1#_ ↔ v.toNat / 2 ^ 23 % 2 ^ 8 = 255 := by
  rw [← BitVec.toNat_inj, unpackExponent_toNat]
  rfl

theorem exponent_zero_iff : @unpackExponent .binary32 v = 0#_ ↔ v.toNat / 2 ^ 23 % 2 ^ 8 = 0 := by
  rw [← BitVec.toNat_inj, unpackExponent_toNat]
  rfl

theorem mantissa_zero_iff : @unpackMantissa .binary32 v = 0#_ ↔ v.toNat % 2 ^ 23 = 0 := by
  rw [← BitVec.toNat_inj, unpackMantissa_toNat]
  rfl

theorem sign_positive {v : BitVec 32} (h : v.toNat < 2 ^ 31) :
    Sign.ofBitVec (@unpackSign .binary32 v) = .positive := by
  have hzero : @unpackSign .binary32 v = 0#1 := by
    rw [← BitVec.toNat_inj, unpackSign_toNat, BitVec.toNat_ofNat]
    omega
  rw [hzero]
  rfl

end Fields

section Unpack
variable {v : BitVec 32}

theorem unpack_zero (h : v.toNat = 0) : unpack .binary32 v = .zero .positive := by
  rw [unpack, if_neg (mt (exponent_ones_iff v).mp (by omega)), if_pos ((exponent_zero_iff v).mpr (by omega)),
    dif_pos ((mantissa_zero_iff v).mpr (by omega)), sign_positive (by omega)]

theorem unpack_infinity (h : v.toNat = 0x7F800000) : unpack .binary32 v = .infinity .positive := by
  rw [unpack, if_pos ((exponent_ones_iff v).mpr (by omega)), if_pos ((mantissa_zero_iff v).mpr (by omega)),
    sign_positive (by omega)]

theorem unpack_subnormal (h : 0 < v.toNat) (hsmall : v.toNat < 2 ^ 23) :
    unpack .binary32 v = .finite .positive v.toNat (-149) h := by
  have hexponent : (@unpackExponent .binary32 v).toNat = 0 := by
    rw [unpackExponent_toNat]
    omega
  have hmantissa : (@unpackMantissa .binary32 v).toNat = v.toNat := by
    rw [unpackMantissa_toNat]
    omega
  rw [unpack, if_neg (mt (exponent_ones_iff v).mp (by omega)), if_pos ((exponent_zero_iff v).mpr (by omega)),
    dif_neg (mt (mantissa_zero_iff v).mp (by omega)), sign_positive (by omega)]
  simp only [hexponent, hmantissa]
  rfl

theorem unpack_normal (h : 2 ^ 23 ≤ v.toNat) (hfinite : v.toNat < 0x7F800000) :
    unpack .binary32 v =
      .finite .positive (2 ^ 23 + v.toNat % 2 ^ 23) ((v.toNat / 2 ^ 23 : Nat) - 150) (by omega) := by
  have hexponent : (@unpackExponent .binary32 v).toNat = v.toNat / 2 ^ 23 := by
    rw [unpackExponent_toNat]
    omega
  have hmantissa : (1#1 ++ @unpackMantissa .binary32 v).toNat = 2 ^ 23 + v.toNat % 2 ^ 23 := by
    rw [← unpackMantissa_toNat]
    exact append_toNat _ _
  rw [unpack, if_neg (mt (exponent_ones_iff v).mp (by omega)), if_neg (mt (exponent_zero_iff v).mp (by omega)),
    sign_positive (by omega)]
  simp only [hexponent, hmantissa]
  rfl

end Unpack

theorem pack_subnormal {m : Nat} (hm : 0 < m) (hsmall : m < 2 ^ 23) :
    (pack .binary32 (.finite .positive m (-149) hm)).toNat = m := by
  have hlog : m.log2 < 23 := (Nat.log2_lt (Nat.ne_of_gt hm)).mpr hsmall
  have hbits : m.log2 + 1 ≠ Format.binary32.mantissaBits := by
    change m.log2 + 1 ≠ 24
    omega
  rw [pack, if_neg (by decide), if_neg hbits]
  refine (packComponents_toNat _ _).trans ?_
  rw [BitVec.toNat_ofNat, BitVec.toNat_ofNat, Nat.mod_eq_of_lt hsmall, Nat.zero_mod, Nat.zero_mul, Nat.zero_add]

theorem pack_normal {m e : Nat} (hm : m < 2 ^ 23) (he : e < 255) :
    (pack .binary32 (.finite .positive (2 ^ 23 + m) (e - 150) (by omega))).toNat = e * 2 ^ 23 + m := by
  have hlog : (2 ^ 23 + m).log2 = 23 := (Nat.log2_eq_iff (by omega)).mpr ⟨by omega, by omega⟩
  have hbits : (2 ^ 23 + m).log2 + 1 = Format.binary32.mantissaBits := by
    rw [hlog]
    rfl
  have hbiased : ((e : Int) - 150 + Format.binary32.exponentBias + (23 : Nat)).toNat = e := by
    change ((e : Int) - 150 + (127 : Nat) + (23 : Nat)).toNat = e
    omega
  have hfits : ¬ 2 ^ Format.binary32.exponentBits ≤ e + 1 := by
    change ¬ 256 ≤ e + 1
    omega
  rw [pack, hbiased, if_neg hfits, if_pos hbits]
  refine (packComponents_toNat _ _).trans ?_
  rw [BitVec.toNat_ofNat, BitVec.toNat_ofNat]
  omega

theorem pack_unpack {v : BitVec 32} (hv : v.toNat ≤ 0x7F800000) : pack .binary32 (unpack .binary32 v) = v := by
  rw [← BitVec.toNat_inj]
  rcases Nat.eq_zero_or_pos v.toNat with hzero | hpos
  · rw [unpack_zero hzero, hzero]
    rfl
  rcases Nat.lt_or_ge v.toNat (2 ^ 23) with hsmall | hnormal
  · rw [unpack_subnormal hpos hsmall, pack_subnormal hpos hsmall]
  rcases Nat.lt_or_ge v.toNat 0x7F800000 with hfinite | hinfinite
  · have hfraction : v.toNat % 2 ^ 23 < 2 ^ 23 := Nat.mod_lt _ (by decide)
    have hexponent : v.toNat / 2 ^ 23 < 255 := by omega
    rw [unpack_normal hnormal hfinite, pack_normal hfraction hexponent]
    omega
  · have hinfinity : v.toNat = 0x7F800000 := Nat.le_antisymm hv hinfinite
    rw [unpack_infinity hinfinity, hinfinity]
    rfl

theorem zero_lt_unpack {v : BitVec 32} (hv : v.toNat ≤ 0x7F800000) :
    (UnpackedFloat.zero .positive).lt (unpack .binary32 v) = true ↔ 0 < v.toNat := by
  rcases Nat.eq_zero_or_pos v.toNat with hzero | hpos
  · rw [unpack_zero hzero, hzero]
    exact iff_of_false Bool.false_ne_true (Nat.lt_irrefl 0)
  refine iff_of_true ?_ hpos
  rcases Nat.lt_or_ge v.toNat (2 ^ 23) with hsmall | hnormal
  · rw [unpack_subnormal hpos hsmall]
    rfl
  rcases Nat.lt_or_ge v.toNat 0x7F800000 with hfinite | hinfinite
  · rw [unpack_normal hnormal hfinite]
    rfl
  · rw [unpack_infinity (Nat.le_antisymm hv hinfinite)]
    rfl

theorem ofBits_pos_iff {bits : UInt32} (h : bits.toNat ≤ 0x7F800000) :
    0 < Float32.ofBits bits ↔ 0 < bits.toNat := by
  have hzero : (0 : Float32).toModel.unpack = .zero .positive := rfl
  have hunpack : (Float32.ofBits bits).toModel.unpack = unpack .binary32 bits.toBitVec :=
    congrArg (unpack .binary32) (pack_unpack h)
  rw [← UInt32.toNat_toBitVec, ← zero_lt_unpack h, ← hzero, ← hunpack]
  exact decide_eq_true_iff

end Chip8.FloatPattern

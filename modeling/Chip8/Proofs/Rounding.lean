import Chip8.Number.Binary
import Mathlib.Algebra.Order.Field.Power
import Mathlib.Data.Rat.Cast.Order

/-!
# Numbers that round to zero

A positive number is rounded to zero exactly if it is at most half of the least positive number of the format; half of
it is a tie, and zero is even. So whether a decimal text is positive depends on the format in which it is read.
-/

namespace Chip8
set_option autoImplicit false

namespace BinaryFormat

theorem nearest_pos_iff {num den : Nat} (hden : 0 < den) : 0 < nearest num den ↔ den < 2 * num := by
  have hdivision := Nat.div_add_mod num den
  have hremainder := Nat.mod_lt num hden
  unfold nearest
  rcases Nat.eq_zero_or_pos (num / den) with hquotient | hquotient
  · rw [hquotient, Nat.mul_zero, Nat.zero_add] at hdivision
    rw [hquotient, hdivision]
    simp only [Nat.zero_mod, beq_self_eq_true, Bool.and_true, Bool.or_eq_true, decide_eq_true_eq, beq_iff_eq]
    split <;> omega
  · have hlarge : den ≤ num := (Nat.div_pos_iff.mp hquotient).2
    dsimp only
    split <;> omega

theorem shift_log2_le {num : Nat} (den : Nat) (hnum : 0 < num) :
    den <<< (log2 num den).toNat ≤ num <<< (-log2 num den).toNat := by
  unfold log2
  dsimp only
  split
  · assumption
  · have hlow : 2 ^ num.log2 ≤ num := Nat.log2_self_le (Nat.pos_iff_ne_zero.mp hnum)
    have hhigh : den < 2 ^ (den.log2 + 1) := Nat.lt_log2_self
    simp only [Nat.shiftLeft_eq]
    rcases Nat.lt_or_ge den.log2 num.log2 with hlt | hge
    · have hup : ((num.log2 : Int) - den.log2 - 1).toNat = num.log2 - den.log2 - 1 := by omega
      have hdown : (-((num.log2 : Int) - den.log2 - 1)).toNat = 0 := by omega
      have hsplit : num.log2 = den.log2 + 1 + (num.log2 - den.log2 - 1) := by omega
      rw [hup, hdown, Nat.pow_zero, Nat.mul_one]
      calc den * 2 ^ (num.log2 - den.log2 - 1)
          ≤ 2 ^ (den.log2 + 1) * 2 ^ (num.log2 - den.log2 - 1) := Nat.mul_le_mul_right _ (Nat.le_of_lt hhigh)
        _ = 2 ^ num.log2 := by rw [← Nat.pow_add, ← hsplit]
        _ ≤ num := hlow
    · have hup : ((num.log2 : Int) - den.log2 - 1).toNat = 0 := by omega
      have hdown : (-((num.log2 : Int) - den.log2 - 1)).toNat = den.log2 + 1 - num.log2 := by omega
      have hsplit : den.log2 + 1 = num.log2 + (den.log2 + 1 - num.log2) := by omega
      rw [hup, hdown, Nat.pow_zero, Nat.mul_one]
      calc den ≤ 2 ^ (den.log2 + 1) := Nat.le_of_lt hhigh
        _ = 2 ^ num.log2 * 2 ^ (den.log2 + 1 - num.log2) := by rw [← Nat.pow_add, ← hsplit]
        _ ≤ num * 2 ^ (den.log2 + 1 - num.log2) := Nat.mul_le_mul_right _ hlow

theorem round_le_infinity (f : BinaryFormat) (num den : Nat) : f.round num den ≤ f.infinity := by
  unfold round
  split
  · exact Nat.zero_le _
  · exact Nat.min_le_right _ _

/-- A fraction is not rounded to zero exactly if it is more than half of the least positive number. -/
theorem round_pos_iff {f : BinaryFormat} (hleast : f.minExponent ≤ 0) (hinfinity : 0 < f.infinity) {num den : Nat}
    (hden : 0 < den) : 0 < f.round num den ↔ den < num * 2 ^ (1 - f.minExponent).toNat := by
  unfold round
  split
  · rename_i hzero
    rw [hzero, Nat.zero_mul]
    exact iff_of_false (Nat.lt_irrefl 0) (Nat.not_lt_zero den)
  · rename_i hnum
    replace hnum := Nat.pos_of_ne_zero hnum
    dsimp only
    rw [lt_min_iff, and_iff_left hinfinity]
    rcases le_or_gt (log2 num den - (f.precision - 1 : Nat)) f.minExponent with hsub | hnormal
    · have hscale : (1 - f.minExponent).toNat = (-f.minExponent).toNat + 1 := by omega
      rw [max_eq_right hsub, Int.sub_self, Int.toNat_zero, Nat.zero_shiftLeft, Nat.zero_add,
        Int.toNat_of_nonpos hleast, Nat.shiftLeft_zero, nearest_pos_iff hden, Nat.shiftLeft_eq, hscale,
        Nat.pow_succ, Nat.mul_comm 2, Nat.mul_assoc]
    · have hsteps : 0 < (log2 num den - (f.precision - 1 : Nat) - f.minExponent).toNat := by omega
      have hshift : (-log2 num den).toNat < (1 - f.minExponent).toNat := by omega
      have hexceeds : den < num * 2 ^ (1 - f.minExponent).toNat :=
        calc den ≤ den <<< (log2 num den).toNat := by
              rw [Nat.shiftLeft_eq]
              exact Nat.le_mul_of_pos_right den (Nat.two_pow_pos _)
          _ ≤ num <<< (-log2 num den).toNat := shift_log2_le den hnum
          _ = num * 2 ^ (-log2 num den).toNat := Nat.shiftLeft_eq _ _
          _ < num * 2 ^ (1 - f.minExponent).toNat :=
              Nat.mul_lt_mul_of_pos_left (Nat.pow_lt_pow_right (by decide) hshift) hnum
      rw [max_eq_left (le_of_lt hnormal), Nat.shiftLeft_eq]
      exact iff_of_true (Nat.add_pos_left (Nat.mul_pos hsteps (Nat.two_pow_pos _)) _) hexceeds

end BinaryFormat

namespace Numeral

def Exceeds (bound : ℚ) : Numeral → Prop
  | finite negative digits exponent => bound < (if negative then -1 else 1) * digits * 10 ^ exponent
  | infinite negative => negative = false
  | nan => False

theorem power_ten (exponent : Int) : (10 : ℚ) ^ exponent = 10 ^ exponent.toNat / 10 ^ (-exponent).toNat := by
  calc (10 : ℚ) ^ exponent = 10 ^ ((exponent.toNat : Int) - (-exponent).toNat) := by rw [Int.toNat_sub_toNat_neg]
    _ = 10 ^ exponent.toNat / 10 ^ (-exponent).toNat := by
      rw [zpow_sub₀ (by norm_num), zpow_natCast, zpow_natCast]

theorem exceeds_power_iff (digits : Nat) (exponent : Int) (k : Nat) :
    (finite false digits exponent).Exceeds (2 ^ (-(k : Int))) ↔
      10 ^ (-exponent).toNat < digits * 10 ^ exponent.toNat * 2 ^ k := by
  have hten : (0 : ℚ) < 10 ^ (-exponent).toNat := pow_pos (by norm_num) _
  have htwo : (0 : ℚ) < 2 ^ k := pow_pos (by norm_num) _
  rw [Exceeds, if_neg Bool.false_ne_true, one_mul, power_ten, zpow_neg, zpow_natCast, ← one_div, ← mul_div_assoc,
    div_lt_div_iff₀ htwo hten, one_mul]
  exact_mod_cast Iff.rfl

theorem not_exceeds_of_negative {bound : ℚ} (hbound : 0 ≤ bound) (digits : Nat) (exponent : Int) :
    ¬ (finite true digits exponent).Exceeds bound := by
  have hvalue : 0 ≤ (digits : ℚ) * 10 ^ exponent := mul_nonneg (Nat.cast_nonneg _) (zpow_nonneg (by norm_num) _)
  rw [Exceeds, if_pos rfl, mul_assoc, neg_one_mul]
  exact not_lt_of_ge (le_trans (neg_nonpos.mpr hvalue) hbound)

theorem magnitudeBits_pos_iff {f : BinaryFormat} (hleast : f.minExponent ≤ 0) (hinfinity : 0 < f.infinity)
    (digits : Nat) (exponent : Int) : 0 < (finite false digits exponent).magnitudeBits f ↔
      (finite false digits exponent).Exceeds (2 ^ (f.minExponent - 1)) := by
  have hpower : f.minExponent - 1 = -((1 - f.minExponent).toNat : Int) := by omega
  have hden : 0 < Nat.pow 10 (-exponent).toNat := Nat.pow_pos (by decide)
  rw [hpower, exceeds_power_iff, magnitudeBits, BinaryFormat.round_pos_iff hleast hinfinity hden]
  rfl

theorem isPositive_iff (n : Numeral) : n.isPositive = true ↔ n.Exceeds (2 ^ (-1075 : Int)) := by
  cases n with
  | finite negative digits exponent =>
    cases negative with
    | false =>
      have hmagnitude := magnitudeBits_pos_iff (f := binary64) (by decide) (by decide) digits exponent
      rw [isPositive, Bool.not_false, Bool.true_and, decide_eq_true_eq]
      exact hmagnitude
    | true =>
      exact iff_of_false Bool.false_ne_true (not_exceeds_of_negative (by positivity) digits exponent)
  | infinite negative => cases negative <;> simp [isPositive, Exceeds]
  | nan => exact iff_of_false Bool.false_ne_true id

end Numeral

end Chip8

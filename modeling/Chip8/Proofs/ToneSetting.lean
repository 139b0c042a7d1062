import Chip8.Proofs.FloatPatterns
import Chip8.Proofs.Judgement
import Chip8.Proofs.Rounding

/-!
# The tone that is set

A tone is accepted if it is greater than zero as a number of 64 bits, and set as a number of 32 bits. Between half of
the least positive numbers of the two formats lie tones that are accepted and set to zero.
-/

namespace Chip8
set_option autoImplicit false

namespace Numeral

theorem eq_of_isPositive {n : Numeral} (hn : n.isPositive = true) :
    (∃ digits exponent, n = finite false digits exponent) ∨ n = infinite false := by
  cases n with
  | finite negative digits exponent =>
    cases negative with
    | false => exact Or.inl ⟨digits, exponent, rfl⟩
    | true => exact absurd hn Bool.false_ne_true
  | infinite negative =>
    cases negative with
    | false => exact Or.inr rfl
    | true => exact absurd hn Bool.false_ne_true
  | nan => exact absurd hn Bool.false_ne_true

theorem toFloat32_eq {n : Numeral} (hn : n.isPositive = true) :
    n.toFloat32 = .ofBits (UInt32.ofNat (n.magnitudeBits binary32)) ∧ n.magnitudeBits binary32 ≤ 0x7F800000 := by
  rcases eq_of_isPositive hn with ⟨digits, exponent, rfl⟩ | rfl
  · refine ⟨?_, BinaryFormat.round_le_infinity binary32 _ _⟩
    rw [toFloat32, isNegative, if_neg Bool.false_ne_true, Nat.zero_add]
  · exact ⟨rfl, Nat.le_refl _⟩

theorem toFloat32_pos_iff_bits {n : Numeral} (hn : n.isPositive = true) :
    0 < n.toFloat32 ↔ 0 < n.magnitudeBits binary32 := by
  obtain ⟨htone, hlimit⟩ := toFloat32_eq hn
  have hbits : (UInt32.ofNat (n.magnitudeBits binary32)).toNat = n.magnitudeBits binary32 :=
    UInt32.toNat_ofNat_of_lt' (Nat.lt_of_le_of_lt hlimit (by decide))
  rw [htone, FloatPattern.ofBits_pos_iff (hbits.symm ▸ hlimit), hbits]

theorem magnitudeBits_single_pos_iff {n : Numeral} (hn : n.isPositive = true) :
    0 < n.magnitudeBits binary32 ↔ n.Exceeds (2 ^ (-150 : Int)) := by
  rcases eq_of_isPositive hn with ⟨digits, exponent, rfl⟩ | rfl
  · exact magnitudeBits_pos_iff (f := binary32) (by decide) (by decide) digits exponent
  · exact iff_of_true (by decide) rfl

end Numeral

namespace CommandLine

namespace Arguments
variable {a : Arguments}

theorem settings_tone {settings : Settings} (h : a.settings = .ok settings) :
    ∃ n, Numeral.parse? (a.value .tone) = some n ∧ n.isPositive = true ∧ settings.tone = n.toFloat32 := by
  obtain ⟨rom, hcheck⟩ := check_of_settings h
  obtain ⟨n, hparse, hpositive, hsettings⟩ := settings_of_check hcheck
  refine ⟨n, hparse, hpositive, ?_⟩
  rw [hsettings] at h
  split at h
  · contradiction
  · rw [← Except.ok.inj h]

end Arguments

end CommandLine

open CommandLine

/-- The tone of a command line that is accepted is read as a number that is more than half of the least positive
number of 64 bits. It is set to a positive number exactly if it is also more than half of the least one of 32 bits, and
to zero otherwise. -/
theorem tone_positive_iff {args : List String} {settings : Settings} (h : parse args = .ok settings) :
    ∃ a n, Arguments.read {} none args = .ok a ∧ Numeral.parse? (a.value .tone) = some n ∧
      n.Exceeds (2 ^ (-1075 : Int)) ∧ (0 < settings.tone ↔ n.Exceeds (2 ^ (-150 : Int))) ∧
      (¬ n.Exceeds (2 ^ (-150 : Int)) → settings.tone = 0) := by
  unfold parse at h
  cases hread : Arguments.read {} none args with
  | error stop =>
    rw [hread] at h
    contradiction
  | ok a =>
    rw [hread] at h
    obtain ⟨n, hparse, hpositive, htone⟩ := Arguments.settings_tone h
    refine ⟨a, n, rfl, hparse, n.isPositive_iff.mp hpositive, ?_, ?_⟩
    · rw [htone, Numeral.toFloat32_pos_iff_bits hpositive, Numeral.magnitudeBits_single_pos_iff hpositive]
    · intro hsmall
      have hbits : n.magnitudeBits binary32 = 0 :=
        Nat.eq_zero_of_not_pos (mt (Numeral.magnitudeBits_single_pos_iff hpositive).mp hsmall)
      rw [htone, (Numeral.toFloat32_eq hpositive).1, hbits]
      rfl

/-- The settings of a command line whose tone is between the two bounds. -/
def inaudible : Settings where
  rom := "rom.ch8"
  cyclesPerSecond := 1000
  scale := .x16
  tone := 0
  mute := false
  verbosity := .upTo .info

theorem accepted_tone_is_zero :
    parse ["--tone", "1e-46", "rom.ch8"] = .ok inaudible ∧ ¬ 0 < inaudible.tone := by
  refine ⟨rfl, ?_⟩
  decide

theorem tone_positive_iff_of_inaudible :
    ∃ n : Numeral, Numeral.parse? "1e-46" = some n ∧ n.Exceeds (2 ^ (-1075 : Int)) ∧
      ¬ n.Exceeds (2 ^ (-150 : Int)) ∧ ¬ 0 < inaudible.tone := by
  have hparse : parse ["--tone", "1e-46", "rom.ch8"] = .ok inaudible := rfl
  obtain ⟨a, n, hread, hnumeral, haccepted, hpositive, _⟩ := tone_positive_iff hparse
  have hzero : ¬ 0 < inaudible.tone := by decide
  obtain rfl := Except.ok.inj hread
  exact ⟨n, hnumeral, haccepted, mt hpositive.mpr hzero, hzero⟩

end Chip8

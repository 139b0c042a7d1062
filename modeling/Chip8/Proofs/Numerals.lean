import Chip8.Proofs.Rounding
import Mathlib.Data.List.TakeWhile

/-!
# Texts of numbers

Two readings of one text. A text of decimal digits, perhaps after a plus sign, is read as a whole number, and by the
other reading as the same number with nothing behind the point; no other text is a whole number. A text that is read as
a positive number starts neither with a dash nor with an equals sign.
-/

namespace Chip8.Numeral
set_option autoImplicit false

/-- The text writes a whole number: one decimal digit or more, perhaps after a plus sign. -/
def Writes (text : String) (n : Nat) : Prop :=
  ∃ ds : List Char, ds ≠ [] ∧ (∀ c ∈ ds, c.isDigit = true) ∧
    (text.toList = ds ∨ text.toList = '+' :: ds) ∧ Nat.ofDigitChars 10 ds 0 = n

/-- The text is read as a number that is positive in 64 bits. -/
def WritesPositive (text : String) : Prop :=
  ∃ n, parse? text = some n ∧ n.Exceeds (2 ^ (-1075 : Int))

def afterPlus : List Char → List Char
  | '+' :: cs => cs
  | cs => cs

theorem ofDigits_eq (ds : List Char) : ofDigits ds = Nat.ofDigitChars 10 ds 0 := by
  rw [Nat.ofDigitChars_eq_foldl]
  unfold ofDigits
  congr 1
  funext n c
  rw [Nat.mul_comm]
  rfl

theorem isPositive_any_iff (text : String) : (parse? text).any isPositive = true ↔ WritesPositive text := by
  rw [Option.any_eq_true]
  simp only [WritesPositive, isPositive_iff]

instance : DecidablePred WritesPositive := fun text => decidable_of_iff _ (isPositive_any_iff text)

section Digits
variable {ds : List Char} (hdigits : ∀ c ∈ ds, c.isDigit = true)
include hdigits

theorem afterPlus_digits : afterPlus ds = ds := by
  cases ds with
  | nil => rfl
  | cons c cs =>
    have hc : c ≠ '+' := by
      rintro rfl
      exact absurd (hdigits '+' List.mem_cons_self) (by decide)
    unfold afterPlus
    split
    · rename_i heq
      exact absurd (List.cons.inj heq).1 hc
    · rfl

theorem splitSign_digits : splitSign ds = (false, ds) := by
  cases ds with
  | nil => rfl
  | cons c cs =>
    have hplus : c ≠ '+' := by
      rintro rfl
      exact absurd (hdigits '+' List.mem_cons_self) (by decide)
    have hminus : c ≠ '-' := by
      rintro rfl
      exact absurd (hdigits '-' List.mem_cons_self) (by decide)
    unfold splitSign
    split
    · rename_i heq
      exact absurd (List.cons.inj heq).1 hminus
    · rename_i heq
      exact absurd (List.cons.inj heq).1 hplus
    · rfl

theorem magnitude?_digits (hsome : ds ≠ []) : magnitude? ds = some (Nat.ofDigitChars 10 ds 0, 0) := by
  have htake : ds.takeWhile Char.isDigit = ds := List.takeWhile_eq_self_iff.mpr hdigits
  have hdrop : ds.dropWhile Char.isDigit = [] := List.dropWhile_eq_nil_iff.mpr hdigits
  have hfull : ds.isEmpty = false := List.isEmpty_eq_false_iff.mpr hsome
  unfold magnitude?
  simp [htake, hdrop, splitFraction, hfull, ofDigits_eq]

end Digits

section Writes
variable {text : String} {n : Nat} (h : Writes text n)

theorem whole?_eq (text : String) : whole? text =
    let ds := afterPlus text.toList
    if ds.isEmpty || !ds.all Char.isDigit then none
    else if ofDigits ds < UInt32.size then some (UInt32.ofNat (ofDigits ds)) else none := rfl

include h in
theorem parse?_of_writes : parse? text = some (finite false n 0) := by
  obtain ⟨ds, hsome, hdigits, htext, rfl⟩ := h
  have hsign : splitSign text.toList = (false, ds) := by
    rcases htext with htext | htext
    · rw [htext, splitSign_digits hdigits]
    · rw [htext]
      rfl
  unfold parse?
  simp [hsign, magnitude?_digits hdigits hsome]

include h in
theorem whole?_of_writes : whole? text = if n < 2 ^ 32 then some (UInt32.ofNat n) else none := by
  obtain ⟨ds, hsome, hdigits, htext, rfl⟩ := h
  have hplus : afterPlus text.toList = ds := by
    rcases htext with htext | htext
    · rw [htext, afterPlus_digits hdigits]
    · rw [htext]
      rfl
  have hall : ds.all Char.isDigit = true := List.all_eq_true.mpr hdigits
  have hfull : ds.isEmpty = false := List.isEmpty_eq_false_iff.mpr hsome
  rw [whole?_eq, hplus]
  simp only [hall, hfull, ofDigits_eq]
  rfl

theorem writes_of_whole? {w : UInt32} (hw : whole? text = some w) : Writes text w.toNat := by
  rw [whole?_eq] at hw
  dsimp only at hw
  split at hw
  · contradiction
  · rename_i hdigits
    split at hw
    · rename_i hlt
      simp only [Bool.or_eq_true, not_or, Bool.not_eq_true, Bool.not_eq_false', List.isEmpty_eq_false_iff,
        List.all_eq_true] at hdigits
      refine ⟨afterPlus text.toList, hdigits.1, hdigits.2, ?_, ?_⟩
      · unfold afterPlus
        split
        · rename_i htext
          exact Or.inr htext
        · exact Or.inl rfl
      · rw [← Option.some.inj hw, UInt32.toNat_ofNat_of_lt' hlt, ofDigits_eq]
    · contradiction

theorem whole?_eq_none_iff : whole? text = none ↔ ¬ ∃ n < 2 ^ 32, Writes text n := by
  constructor
  · rintro hnone ⟨n, hn, hwrites⟩
    rw [whole?_of_writes hwrites, if_pos hn] at hnone
    contradiction
  · intro hno
    cases hw : whole? text with
    | none => rfl
    | some w => exact absurd ⟨w.toNat, w.toNat_lt, writes_of_whole? hw⟩ hno

include h in
theorem writes_unique {m : Nat} (h' : Writes text m) : m = n := by
  have hparse := parse?_of_writes h'
  rw [parse?_of_writes h] at hparse
  injection hparse with hnumber
  injection hnumber with _ hdigits _
  exact hdigits.symm

theorem exceeds_whole_iff (n : Nat) {k : Nat} (hk : k ≠ 0) :
    (finite false n 0).Exceeds (2 ^ (-(k : Int))) ↔ 0 < n := by
  have hpower : 1 < 2 ^ k := Nat.one_lt_two_pow hk
  rw [exceeds_power_iff, Int.neg_zero, Int.toNat_zero, Nat.pow_zero, Nat.mul_one]
  constructor
  · intro hlt
    rcases Nat.eq_zero_or_pos n with rfl | hn
    · rw [Nat.zero_mul] at hlt
      contradiction
    · exact hn
  · intro hn
    exact Nat.lt_of_lt_of_le hpower (Nat.le_mul_of_pos_left _ hn)

include h in
theorem writesPositive_iff : WritesPositive text ↔ 0 < n := by
  rw [← exceeds_whole_iff n (k := 1075) (by decide)]
  constructor
  · rintro ⟨m, hm, hpositive⟩
    rw [parse?_of_writes h] at hm
    exact Option.some.inj hm ▸ hpositive
  · intro hpositive
    exact ⟨_, parse?_of_writes h, hpositive⟩

end Writes

section Head
variable {text : String} {cs : List Char} (h : WritesPositive text)
include h

theorem ne_nil_of_writesPositive : text.toList ≠ [] := by
  intro htext
  obtain ⟨n, hparse, _⟩ := h
  have hnone : parse? text = none := by
    unfold parse?
    rw [htext]
    rfl
  rw [hnone] at hparse
  contradiction

theorem no_dash_of_writesPositive : text.toList ≠ '-' :: cs := by
  intro htext
  obtain ⟨n, hparse, hpositive⟩ := h
  have hsign : splitSign text.toList = (true, cs) := by
    rw [htext]
    rfl
  simp only [parse?, hsign] at hparse
  split at hparse
  · obtain rfl := Option.some.inj hparse
    exact not_exceeds_of_negative (by positivity) _ _ hpositive
  · split at hparse
    · obtain rfl := Option.some.inj hparse
      exact Bool.noConfusion hpositive
    · split at hparse
      · obtain rfl := Option.some.inj hparse
        exact hpositive
      · contradiction

theorem no_equals_of_writesPositive : text.toList ≠ '=' :: cs := by
  intro htext
  obtain ⟨n, hparse, _⟩ := h
  have hword (word : String) (hword : word.toList.head? ≠ some '=') :
      (String.ofList (('=' :: cs).map Char.toLower) == word) = false := by
    apply beq_eq_false_iff_ne.mpr
    rintro rfl
    exact hword (by rw [String.toList_ofList]; rfl)
  have hnone : parse? text = none := by
    have hsign : splitSign text.toList = (false, '=' :: cs) := by
      rw [htext]
      rfl
    have hmagnitude : magnitude? ('=' :: cs) = none := rfl
    simp only [parse?, hsign, hmagnitude, hword "inf" (by decide), hword "infinity" (by decide),
      hword "nan" (by decide)]
    rfl
  rw [hnone] at hparse
  contradiction

end Head

theorem writes_toString (n : Nat) : Writes (toString n) n := by
  have htext : (toString n).toList = Nat.toDigits 10 n := String.toList_ofList
  exact ⟨Nat.toDigits 10 n, Nat.toDigits_ne_nil,
    fun c hc => Nat.isDigit_of_mem_toDigits (by decide) (by decide) hc, Or.inl htext, Nat.ofDigitChars_ten_toDigits⟩

theorem whole?_toString (n : UInt32) : whole? (toString n.toNat) = some n := by
  rw [whole?_of_writes (writes_toString n.toNat), if_pos n.toNat_lt, UInt32.ofNat_toNat]

theorem writesPositive_toString {n : Nat} : WritesPositive (toString n) ↔ 0 < n :=
  writesPositive_iff (writes_toString n)

end Chip8.Numeral

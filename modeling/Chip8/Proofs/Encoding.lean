import Chip8.Proofs.Operands

/-!
# Words of instructions

Every instruction whose operands fit a word has one, and reading a word as an instruction loses nothing but the
last digit of the two skips that compare registers, which is not looked at. So two words are the same instruction
exactly if they are the same word up to that digit.
-/

namespace Chip8.Instruction
set_option autoImplicit false

/-- The word of a group with one register and a byte. -/
def xkk (group : UInt16) (x kk : UInt8) : UInt16 :=
  group * 0x1000 + x.toUInt16 * 0x100 + kk.toUInt16

/-- The word of a group with two registers and a last digit. -/
def xyn (group : UInt16) (x y n : UInt8) : UInt16 := xkk group x (y * 0x10 + n)

/-- The word of a group with an address. -/
def nnn (group address : UInt16) : UInt16 := group * 0x1000 + address

/-- The word that stands for an instruction. The digit that a skip does not look at is 0. -/
def encode : Instruction → UInt16
  | clear => 0x00E0
  | ret => 0x00EE
  | jump address => nnn 0x1 address
  | call address => nnn 0x2 address
  | skipEqByte x kk => xkk 0x3 x kk
  | skipNeByte x kk => xkk 0x4 x kk
  | skipEq x y => xyn 0x5 x y 0
  | loadByte x kk => xkk 0x6 x kk
  | addByte x kk => xkk 0x7 x kk
  | move x y => xyn 0x8 x y 0x0
  | or x y => xyn 0x8 x y 0x1
  | and x y => xyn 0x8 x y 0x2
  | xor x y => xyn 0x8 x y 0x3
  | add x y => xyn 0x8 x y 0x4
  | sub x y => xyn 0x8 x y 0x5
  | shiftRight x y => xyn 0x8 x y 0x6
  | subFrom x y => xyn 0x8 x y 0x7
  | shiftLeft x y => xyn 0x8 x y 0xE
  | skipNe x y => xyn 0x9 x y 0
  | loadIndex address => nnn 0xA address
  | jumpOffset address => nnn 0xB address
  | random x kk => xkk 0xC x kk
  | draw x y n => xyn 0xD x y n
  | skipKeyDown x => xkk 0xE x 0x9E
  | skipKeyUp x => xkk 0xE x 0xA1
  | readDelay x => xkk 0xF x 0x07
  | awaitKey x => xkk 0xF x 0x0A
  | setDelay x => xkk 0xF x 0x15
  | setSound x => xkk 0xF x 0x18
  | addIndex x => xkk 0xF x 0x1E
  | loadGlyph x => xkk 0xF x 0x29
  | storeDecimal x => xkk 0xF x 0x33
  | storeRegisters x => xkk 0xF x 0x55
  | loadRegisters x => xkk 0xF x 0x65
  | unknown word => word

section Fields
variable {group : UInt16} (hgroup : group.toNat < 16) {x y n : UInt8} (hx : x.toNat < 16)
  (hy : y.toNat < 16) (hn : n.toNat < 16) (kk : UInt8)

section
include hgroup hx

theorem xkk_toNat : (xkk group x kk).toNat = group.toNat * 0x1000 + x.toNat * 0x100 + kk.toNat := by
  have hkk := kk.toNat_lt
  simp only [xkk, UInt16.toNat_add, UInt16.toNat_mul, UInt8.toNat_toUInt16, UInt16.reduceToNat]
  omega

theorem xkk_group : (xkk group x kk / 0x1000).toNat = group.toNat := by
  have hkk := kk.toNat_lt
  simp only [UInt16.toNat_div, xkk_toNat hgroup hx, UInt16.reduceToNat]
  omega

theorem xkk_x : (xkk group x kk / 0x100 % 0x10).toUInt8 = x := by
  have hkk := kk.toNat_lt
  rw [← UInt8.toNat_inj, UInt16.toNat_toUInt8, UInt16.toNat_mod, UInt16.toNat_div, xkk_toNat hgroup hx]
  simp only [UInt16.reduceToNat]
  omega

theorem xkk_kk : (xkk group x kk % 0x100).toUInt8 = kk := by
  have hkk := kk.toNat_lt
  rw [← UInt8.toNat_inj, UInt16.toNat_toUInt8, UInt16.toNat_mod, xkk_toNat hgroup hx]
  simp only [UInt16.reduceToNat]
  omega

theorem xyn_group : (xyn group x y n / 0x1000).toNat = group.toNat := xkk_group hgroup hx _

theorem xyn_x : (xyn group x y n / 0x100 % 0x10).toUInt8 = x := xkk_x hgroup hx _

end

section
include hgroup hx hy hn

theorem xyn_toNat :
    (xyn group x y n).toNat = group.toNat * 0x1000 + x.toNat * 0x100 + y.toNat * 0x10 + n.toNat := by
  rw [xyn, xkk_toNat hgroup hx]
  simp only [UInt8.toNat_add, UInt8.toNat_mul, UInt8.reduceToNat]
  omega

theorem xyn_y : (xyn group x y n / 0x10 % 0x10).toUInt8 = y := by
  rw [← UInt8.toNat_inj, UInt16.toNat_toUInt8, UInt16.toNat_mod, UInt16.toNat_div,
    xyn_toNat hgroup hx hy hn]
  simp only [UInt16.reduceToNat]
  omega

theorem xyn_n : (xyn group x y n % 0x10).toUInt8 = n := by
  rw [← UInt8.toNat_inj, UInt16.toNat_toUInt8, UInt16.toNat_mod, xyn_toNat hgroup hx hy hn]
  simp only [UInt16.reduceToNat]
  omega

end

section
include hgroup
variable {address : UInt16} (haddress : address.toNat ≤ 0xFFF)
include haddress

theorem nnn_toNat : (nnn group address).toNat = group.toNat * 0x1000 + address.toNat := by
  simp only [nnn, UInt16.toNat_add, UInt16.toNat_mul, UInt16.reduceToNat]
  omega

theorem nnn_group : (nnn group address / 0x1000).toNat = group.toNat := by
  simp only [UInt16.toNat_div, nnn_toNat hgroup haddress, UInt16.reduceToNat]
  omega

theorem nnn_address : nnn group address % 0x1000 = address := by
  simp only [← UInt16.toNat_inj, UInt16.toNat_mod, nnn_toNat hgroup haddress, UInt16.reduceToNat]
  omega

end
end Fields

theorem decode_encode {i : Instruction} (h : i.InRange) (hknown : ∀ word, i ≠ unknown word) :
    decode i.encode = i := by
  cases i with
  | unknown word => exact absurd rfl (hknown word)
  | clear | ret => rfl
  | jump a | call a | loadIndex a | jumpOffset a =>
    have ha : a.toNat ≤ 0xFFF := h
    simp (disch := first | assumption | decide) only [encode, decode, nnn_group, nnn_address, UInt16.reduceToNat]
  | draw x y n =>
    obtain ⟨hx, hy, hn⟩ := h
    simp (disch := first | assumption | decide) only [encode, decode, xyn_y, xyn_n, xyn_group, xyn_x,
      UInt16.reduceToNat]
  | skipEq x y | skipNe x y | move x y | or x y | and x y | xor x y | add x y | sub x y | subFrom x y
  | shiftRight x y | shiftLeft x y =>
    obtain ⟨hx, hy⟩ := h
    simp (disch := first | assumption | decide) only [encode, decode, xyn_y, xyn_n, xyn_group, xyn_x,
      UInt16.reduceToNat, UInt8.reduceToNat]
  | _ =>
    have hx := h
    simp only [InRange] at hx
    simp (disch := first | assumption | decide) only [encode, decode, xkk_group, xkk_x, xkk_kk,
      UInt16.reduceToNat, UInt8.reduceToNat]

section Words
variable {word group : UInt16} (hgroup : (word / 0x1000).toNat = group.toNat)
include hgroup

theorem xkk_word {kk : UInt8} (hkk : (word % 0x100).toUInt8.toNat = kk.toNat) :
    xkk group (word / 0x100 % 0x10).toUInt8 kk = word := by
  have hword := word.toNat_lt
  simp only [UInt16.toNat_toUInt8, UInt16.toNat_mod, UInt16.toNat_div, UInt16.reduceToNat] at hgroup hkk
  simp only [xkk, ← UInt16.toNat_inj, UInt16.toNat_add, UInt16.toNat_mul, UInt16.toNat_div, UInt16.toNat_mod,
    UInt8.toNat_toUInt16, UInt16.toNat_toUInt8, UInt16.reduceToNat]
  omega

theorem xyn_word {n : UInt8} (hn : (word % 0x10).toUInt8.toNat = n.toNat) :
    xyn group (word / 0x100 % 0x10).toUInt8 (word / 0x10 % 0x10).toUInt8 n = word := by
  apply xkk_word hgroup
  simp only [UInt16.toNat_toUInt8, UInt16.toNat_mod, UInt16.reduceToNat] at hn
  simp only [UInt16.toNat_toUInt8, UInt16.toNat_mod, UInt16.toNat_div, UInt16.reduceToNat, UInt8.toNat_add,
    UInt8.toNat_mul, UInt8.reduceToNat]
  omega

theorem nnn_word : nnn group (word % 0x1000) = word := by
  have hword := word.toNat_lt
  simp only [UInt16.toNat_div, UInt16.reduceToNat] at hgroup
  simp only [nnn, ← UInt16.toNat_inj, UInt16.toNat_add, UInt16.toNat_mul, UInt16.toNat_mod, UInt16.reduceToNat]
  omega

end Words

/-- The word is a skip that compares two registers, of which the last digit is not looked at. -/
def LastDigitIgnored (word : UInt16) : Prop := word / 0x1000 = 5 ∨ word / 0x1000 = 9

theorem encode_decode {word : UInt16} (h : ¬ LastDigitIgnored word) : encode (decode word) = word := by
  unfold decode
  dsimp only
  split
  · split
    · rename_i hword
      exact UInt16.toNat_inj.mp hword.symm
    · rename_i hword
      exact UInt16.toNat_inj.mp hword.symm
    · rfl
  · rename_i hgroup
    exact nnn_word hgroup
  · rename_i hgroup
    exact nnn_word hgroup
  · rename_i hgroup
    exact xkk_word hgroup rfl
  · rename_i hgroup
    exact xkk_word hgroup rfl
  · rename_i hgroup
    exact absurd (Or.inl (UInt16.toNat_inj.mp hgroup)) h
  · rename_i hgroup
    exact xkk_word hgroup rfl
  · rename_i hgroup
    exact xkk_word hgroup rfl
  · rename_i hgroup
    split
    case h_10 => rfl
    all_goals
      rename_i hn
      exact xyn_word hgroup hn
  · rename_i hgroup
    exact absurd (Or.inr (UInt16.toNat_inj.mp hgroup)) h
  · rename_i hgroup
    exact nnn_word hgroup
  · rename_i hgroup
    exact nnn_word hgroup
  · rename_i hgroup
    exact xkk_word hgroup rfl
  · rename_i hgroup
    exact xyn_word hgroup rfl
  · rename_i hgroup
    split
    case h_3 => rfl
    all_goals
      rename_i hkk
      exact xkk_word hgroup hkk
  · have hgroup : (word / 0x1000).toNat = 0xF := by
      have hword := word.toNat_lt
      simp only [UInt16.toNat_div, UInt16.reduceToNat, imp_false] at *
      omega
    split
    case h_10 => rfl
    all_goals
      rename_i hkk
      exact xkk_word hgroup hkk

section LastDigit
variable {word : UInt16}

theorem div_hundred : word / 0x100 = word / 0x10 / 0x10 := by
  simp only [← UInt16.toNat_inj, UInt16.toNat_div, UInt16.reduceToNat]
  omega

theorem decode_five (h : word / 0x1000 = 5) :
    decode word = skipEq (word / 0x10 / 0x10 % 0x10).toUInt8 (word / 0x10 % 0x10).toUInt8 := by
  simp only [decode, h, UInt16.reduceToNat, div_hundred]

theorem decode_nine (h : word / 0x1000 = 9) :
    decode word = skipNe (word / 0x10 / 0x10 % 0x10).toUInt8 (word / 0x10 % 0x10).toUInt8 := by
  simp only [decode, h, UInt16.reduceToNat, div_hundred]

theorem decode_congr {a b : UInt16} (h : LastDigitIgnored a) (hgroup : a / 0x1000 = b / 0x1000)
    (hcut : a / 0x10 = b / 0x10) : decode a = decode b := by
  rcases h with h | h
  · rw [decode_five h, decode_five (hgroup.symm.trans h), hcut]
  · rw [decode_nine h, decode_nine (hgroup.symm.trans h), hcut]

theorem cut_group : word / 0x10 * 0x10 / 0x1000 = word / 0x1000 := by
  have hword := word.toNat_lt
  simp only [← UInt16.toNat_inj, UInt16.toNat_div, UInt16.toNat_mul, UInt16.reduceToNat]
  omega

theorem cut_div : word / 0x10 * 0x10 / 0x10 = word / 0x10 := by
  have hword := word.toNat_lt
  simp only [← UInt16.toNat_inj, UInt16.toNat_div, UInt16.toNat_mul, UInt16.reduceToNat]
  omega

theorem cut_lastDigit : (word / 0x10 * 0x10 % 0x10).toUInt8 = 0 := by
  simp only [← UInt8.toNat_inj, UInt16.toNat_toUInt8, UInt16.toNat_mod, UInt16.toNat_div, UInt16.toNat_mul,
    UInt16.reduceToNat, UInt8.reduceToNat]
  omega

/-- The word of such a skip comes back with 0 for its last digit. -/
theorem encode_decode_cut (h : LastDigitIgnored word) : encode (decode word) = word / 0x10 * 0x10 := by
  have hcut : (word / 0x10 * 0x10 % 0x10).toUInt8.toNat = (0 : UInt8).toNat := congrArg UInt8.toNat cut_lastDigit
  rw [← decode_congr (a := word / 0x10 * 0x10) (by rwa [LastDigitIgnored, cut_group]) cut_group cut_div]
  rcases h with h | h
  · have hgroup := cut_group.trans h
    rw [decode_five hgroup, encode, ← div_hundred]
    exact xyn_word (congrArg UInt16.toNat hgroup) hcut
  · have hgroup := cut_group.trans h
    rw [decode_nine hgroup, encode, ← div_hundred]
    exact xyn_word (congrArg UInt16.toNat hgroup) hcut

theorem decode_eq_iff {a b : UInt16} : decode a = decode b ↔
    a = b ∨ (a / 0x1000 = b / 0x1000 ∧ LastDigitIgnored a ∧ a / 0x10 = b / 0x10) := by
  constructor
  · intro hdecode
    have hencode := congrArg encode hdecode
    by_cases ha : LastDigitIgnored a
    · rw [encode_decode_cut ha] at hencode
      by_cases hb : LastDigitIgnored b
      · rw [encode_decode_cut hb] at hencode
        have hgroup := congrArg (· / 0x1000) hencode
        have hcut := congrArg (· / 0x10) hencode
        simp only [cut_group, cut_div] at hgroup hcut
        exact Or.inr ⟨hgroup, ha, hcut⟩
      · rw [encode_decode hb] at hencode
        rw [← hencode, LastDigitIgnored, cut_group] at hb
        exact absurd ha hb
    · rw [encode_decode ha] at hencode
      by_cases hb : LastDigitIgnored b
      · rw [encode_decode_cut hb] at hencode
        rw [hencode, LastDigitIgnored, cut_group] at ha
        exact absurd hb ha
      · rw [encode_decode hb] at hencode
        exact Or.inl hencode
  · rintro (rfl | ⟨hgroup, hignored, hcut⟩)
    · rfl
    · exact decode_congr hignored hgroup hcut

end LastDigit

/-- Two words are the same instruction exactly if they are equal, or if they agree but for the last digit and are of
one of the two groups that do not look at it. Every instruction of a known form whose operands are in range is
read from some word, and operands that are read from a word are in range. -/
theorem decode_loses_last_digit :
    (∀ a b : UInt16, decode a = decode b ↔
      a = b ∨ (a / 0x1000 = b / 0x1000 ∧ (a / 0x1000 = 5 ∨ a / 0x1000 = 9) ∧ a / 0x10 = b / 0x10)) ∧
    (∀ i : Instruction, (∀ word, i ≠ unknown word) → (i.InRange ↔ ∃ word, decode word = i)) ∧
    (∀ word : UInt16, (decode word).InRange) := by
  refine ⟨fun a b => decode_eq_iff, ?_, decode_inRange⟩
  intro i hknown
  constructor
  · intro hrange
    exact ⟨i.encode, decode_encode hrange hknown⟩
  · rintro ⟨word, rfl⟩
    exact decode_inRange word

theorem decode_loses_last_digit_of_skips :
    decode 0x5120 = decode 0x512F ∧ decode 0x8120 ≠ decode 0x8121 ∧
      (∀ word, skipEq 1 2 ≠ unknown word) ∧ ∃ word, decode word = skipEq 1 2 := by
  obtain ⟨hsame, himage, _⟩ := decode_loses_last_digit
  have hknown : ∀ word, skipEq 1 2 ≠ unknown word := fun _ => Instruction.noConfusion
  refine ⟨(hsame _ _).mpr (Or.inr (by decide)), ?_, hknown, (himage _ hknown).mp ⟨by decide, by decide⟩⟩
  rw [Ne, hsame]
  decide

end Chip8.Instruction

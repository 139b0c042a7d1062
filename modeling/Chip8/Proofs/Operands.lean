import Chip8.Instruction

/-!
# Operands

The ranges of the operands that a word can carry: registers and counts are single hexadecimal digits
and addresses have three of them. Immediate bytes and unknown words are not restricted.
-/

namespace Chip8.Instruction
set_option autoImplicit false

/-- Registers and counts are below 16 and addresses below 0x1000. -/
def InRange : Instruction → Prop
  | clear | ret | unknown _ => True
  | jump a | call a | loadIndex a | jumpOffset a => a.toNat ≤ 0xFFF
  | skipEqByte x _ | skipNeByte x _ | loadByte x _ | addByte x _ | random x _ => x.toNat < 16
  | skipEq x y | skipNe x y | move x y | or x y | and x y | xor x y | add x y | sub x y
  | subFrom x y | shiftRight x y | shiftLeft x y => x.toNat < 16 ∧ y.toNat < 16
  | draw x y n => x.toNat < 16 ∧ y.toNat < 16 ∧ n.toNat < 16
  | skipKeyDown x | skipKeyUp x | readDelay x | awaitKey x | setDelay x | setSound x | addIndex x
  | loadGlyph x | storeDecimal x | storeRegisters x | loadRegisters x => x.toNat < 16

theorem address_le (word : UInt16) : (word % 0x1000).toNat ≤ 0xFFF := by
  rw [UInt16.toNat_mod]
  have := Nat.mod_lt word.toNat (show 0 < (0x1000 : UInt16).toNat by decide)
  exact Nat.le_of_lt_succ this

theorem digit_lt (word : UInt16) : (word % 0x10).toUInt8.toNat < 16 := by
  have h := Nat.mod_lt word.toNat (show 0 < (0x10 : UInt16).toNat by decide)
  rw [UInt16.toNat_toUInt8, UInt16.toNat_mod]
  exact Nat.lt_of_le_of_lt (Nat.mod_le _ _) h

theorem decode_inRange (word : UInt16) : (decode word).InRange := by
  have hx := digit_lt (word / 0x100)
  have hy := digit_lt (word / 0x10)
  have hn := digit_lt word
  have ha := address_le word
  unfold decode
  split
  · split <;> trivial
  · exact ha
  · exact ha
  · exact hx
  · exact hx
  · exact ⟨hx, hy⟩
  · exact hx
  · exact hx
  · dsimp only
    split
    case h_10 => trivial
    all_goals exact ⟨hx, hy⟩
  · exact ⟨hx, hy⟩
  · exact ha
  · exact ha
  · exact hx
  · exact ⟨hx, hy, hn⟩
  · dsimp only
    split
    case h_3 => trivial
    all_goals exact hx
  · dsimp only
    split
    case h_10 => trivial
    all_goals exact hx

end Chip8.Instruction

import Chip8.Instruction
import Chip8.Text.Hexadecimal

/-!
# Mnemonics

The assembly text of an instruction. Registers are written with upper-case digits, addresses with
three and bytes with two lower-case digits behind `0x`, sprite heights in decimal.
-/

namespace Chip8
set_option autoImplicit false

namespace Mnemonic

def reg (r : UInt8) : String := "V" ++ Hexadecimal.upper r.toNat

def byte (b : UInt8) : String := Hexadecimal.marked 2 b.toNat

def addr (a : UInt16) : String := Hexadecimal.marked 3 a.toNat

def word (w : UInt16) : String := Hexadecimal.marked 4 w.toNat

end Mnemonic

open Mnemonic in
def Instruction.mnemonic : Instruction → String
  | .clear => "CLS"
  | .ret => "RET"
  | .jump a => s!"JP {addr a}"
  | .call a => s!"CALL {addr a}"
  | .skipEqByte x kk => s!"SE {reg x}, {byte kk}"
  | .skipNeByte x kk => s!"SNE {reg x}, {byte kk}"
  | .skipEq x y => s!"SE {reg x}, {reg y}"
  | .loadByte x kk => s!"LD {reg x}, {byte kk}"
  | .addByte x kk => s!"ADD {reg x}, {byte kk}"
  | .move x y => s!"LD {reg x}, {reg y}"
  | .or x y => s!"OR {reg x}, {reg y}"
  | .and x y => s!"AND {reg x}, {reg y}"
  | .xor x y => s!"XOR {reg x}, {reg y}"
  | .add x y => s!"ADD {reg x}, {reg y}"
  | .sub x y => s!"SUB {reg x}, {reg y}"
  | .shiftRight x y => s!"SHR {reg x}, {reg y}"
  | .subFrom x y => s!"SUBN {reg x}, {reg y}"
  | .shiftLeft x y => s!"SHL {reg x}, {reg y}"
  | .skipNe x y => s!"SNE {reg x}, {reg y}"
  | .loadIndex a => s!"LD I, {addr a}"
  | .jumpOffset a => s!"JP V0, {addr a}"
  | .random x kk => s!"RND {reg x}, {byte kk}"
  | .draw x y n => s!"DRW {reg x}, {reg y}, {n}"
  | .skipKeyDown x => s!"SKP {reg x}"
  | .skipKeyUp x => s!"SKNP {reg x}"
  | .readDelay x => s!"LD {reg x}, DT"
  | .awaitKey x => s!"LD {reg x}, K"
  | .setDelay x => s!"LD DT, {reg x}"
  | .setSound x => s!"LD ST, {reg x}"
  | .addIndex x => s!"ADD I, {reg x}"
  | .loadGlyph x => s!"LD F, {reg x}"
  | .storeDecimal x => s!"LD B, {reg x}"
  | .storeRegisters x => s!"LD [I], {reg x}"
  | .loadRegisters x => s!"LD {reg x}, [I]"
  | .unknown w => s!"DW {word w}"

end Chip8

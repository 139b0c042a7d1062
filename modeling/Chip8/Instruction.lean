/-!
# Instructions

The thirty-five forms of instruction word and the reading of a word as one of them. A word has four
hexadecimal digits: the first is the group, the others give registers `x` and `y`, a short count
`n`, a byte `kk` or an address `nnn`. A word of no known form is kept whole.
-/

namespace Chip8
set_option autoImplicit false

inductive Instruction where
  | clear                         -- 00E0
  | ret                           -- 00EE
  | jump (address : UInt16)       -- 1NNN
  | call (address : UInt16)       -- 2NNN
  | skipEqByte (x kk : UInt8)     -- 3XKK
  | skipNeByte (x kk : UInt8)     -- 4XKK
  | skipEq (x y : UInt8)          -- 5XY_
  | loadByte (x kk : UInt8)       -- 6XKK
  | addByte (x kk : UInt8)        -- 7XKK, which leaves VF alone
  | move (x y : UInt8)            -- 8XY0
  | or (x y : UInt8)              -- 8XY1
  | and (x y : UInt8)             -- 8XY2
  | xor (x y : UInt8)             -- 8XY3
  | add (x y : UInt8)             -- 8XY4, VF the carry
  | sub (x y : UInt8)             -- 8XY5, VF whether Vx is the greater
  | shiftRight (x y : UInt8)      -- 8XY6, VF the bit shifted out
  | subFrom (x y : UInt8)         -- 8XY7, VF whether Vy is the greater
  | shiftLeft (x y : UInt8)       -- 8XYE, VF the bit shifted out
  | skipNe (x y : UInt8)          -- 9XY_
  | loadIndex (address : UInt16)  -- ANNN
  | jumpOffset (address : UInt16) -- BNNN
  | random (x kk : UInt8)         -- CXKK
  | draw (x y n : UInt8)          -- DXYN
  | skipKeyDown (x : UInt8)       -- EX9E
  | skipKeyUp (x : UInt8)         -- EXA1
  | readDelay (x : UInt8)         -- FX07
  | awaitKey (x : UInt8)          -- FX0A
  | setDelay (x : UInt8)          -- FX15
  | setSound (x : UInt8)          -- FX18
  | addIndex (x : UInt8)          -- FX1E
  | loadGlyph (x : UInt8)         -- FX29
  | storeDecimal (x : UInt8)      -- FX33
  | storeRegisters (x : UInt8)    -- FX55
  | loadRegisters (x : UInt8)     -- FX65
  | unknown (word : UInt16)       -- Any other word, which does nothing.
  deriving DecidableEq, Repr

namespace Instruction

def decode (word : UInt16) : Instruction :=
  let x := (word / 0x100 % 0x10).toUInt8
  let y := (word / 0x10 % 0x10).toUInt8
  let n := (word % 0x10).toUInt8
  let kk := (word % 0x100).toUInt8
  let nnn := word % 0x1000
  match (word / 0x1000).toNat with
  | 0x0 =>
    match word.toNat with
    | 0x00E0 => clear
    | 0x00EE => ret
    | _ => unknown word
  | 0x1 => jump nnn
  | 0x2 => call nnn
  | 0x3 => skipEqByte x kk
  | 0x4 => skipNeByte x kk
  | 0x5 => skipEq x y
  | 0x6 => loadByte x kk
  | 0x7 => addByte x kk
  | 0x8 =>
    match n.toNat with
    | 0x0 => move x y
    | 0x1 => or x y
    | 0x2 => and x y
    | 0x3 => xor x y
    | 0x4 => add x y
    | 0x5 => sub x y
    | 0x6 => shiftRight x y
    | 0x7 => subFrom x y
    | 0xE => shiftLeft x y
    | _ => unknown word
  | 0x9 => skipNe x y
  | 0xA => loadIndex nnn
  | 0xB => jumpOffset nnn
  | 0xC => random x kk
  | 0xD => draw x y n
  | 0xE =>
    match kk.toNat with
    | 0x9E => skipKeyDown x
    | 0xA1 => skipKeyUp x
    | _ => unknown word
  | _ =>
    match kk.toNat with
    | 0x07 => readDelay x
    | 0x0A => awaitKey x
    | 0x15 => setDelay x
    | 0x18 => setSound x
    | 0x1E => addIndex x
    | 0x29 => loadGlyph x
    | 0x33 => storeDecimal x
    | 0x55 => storeRegisters x
    | 0x65 => loadRegisters x
    | _ => unknown word

end Instruction
end Chip8

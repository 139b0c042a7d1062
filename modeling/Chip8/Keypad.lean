/-!
# The keypad

Sixteen hexadecimal keys, laid out on the left of a keyboard:

    1 2 3 C        1 2 3 4
    4 5 6 D   ->   Q W E R
    7 8 9 E        A S D F
    A 0 B F        Z X C V
-/

namespace Chip8
set_option autoImplicit false

inductive KeyboardKey where
  | one | two | three | four
  | q | w | e | r
  | a | s | d | f
  | z | x | c | v
  | f1 | escape
  deriving DecidableEq, Repr

structure Keypad where
  held : Vector Bool 16
  deriving DecidableEq

namespace Keypad

/-- The keyboard key for a key of the pad, of whose number the low four bits count. -/
def keyboardKey (key : UInt8) : KeyboardKey :=
  match (key % 0x10).toNat with
  | 0x1 => .one
  | 0x2 => .two
  | 0x3 => .three
  | 0xC => .four
  | 0x4 => .q
  | 0x5 => .w
  | 0x6 => .e
  | 0xD => .r
  | 0x7 => .a
  | 0x8 => .s
  | 0x9 => .d
  | 0xE => .f
  | 0xA => .z
  | 0x0 => .x
  | 0xB => .c
  | _ => .v

def released : Keypad := ⟨Vector.replicate 16 false⟩

def isDown (pad : Keypad) (key : UInt8) : Bool :=
  pad.held.get ⟨key.toNat % 16, Nat.mod_lt _ (by decide)⟩

def sample (down : KeyboardKey → Bool) : Keypad :=
  ⟨Vector.ofFn fun k => down (keyboardKey (UInt8.ofNat k.1))⟩

end Keypad
end Chip8

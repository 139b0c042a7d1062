/-!
# The register file

Sixteen byte registers V0 to VF. Of a register number only the low four bits count.
-/

namespace Chip8
set_option autoImplicit false

structure Registers where
  cells : Vector UInt8 16
  deriving DecidableEq

namespace Registers

def zero : Registers := ⟨Vector.replicate 16 0⟩

theorem slot_lt (r : UInt8) : r.toNat % 16 < 16 := Nat.mod_lt _ (by decide)

def slot (r : UInt8) : Fin 16 := ⟨r.toNat % 16, slot_lt r⟩

def get (v : Registers) (r : UInt8) : UInt8 := v.cells.get (slot r)

def set (v : Registers) (r value : UInt8) : Registers :=
  ⟨v.cells.set (slot r).1 value (slot r).2⟩

/-- Sets VF, the flag register, to 0 or 1. -/
def setFlag (v : Registers) (flag : Bool) : Registers := v.set 0xF flag.toUInt8

def upTo (v : Registers) (last : UInt8) : List UInt8 :=
  (List.range (last.toNat + 1)).map fun r => v.get (UInt8.ofNat r)

def setFrom (v : Registers) (first : UInt8) : List UInt8 → Registers
  | [] => v
  | b :: bs => (v.set first b).setFrom (first + 1) bs

end Registers
end Chip8

import Chip8.Rom

/-!
# Main memory

4095 bytes behind twelve-bit addresses. An address is cut to twelve bits and then taken modulo the
size, so the last address 0xFFF names the first byte again and no address is out of bounds. The
hexadecimal font lies at 0x50 and programs start at 0x200.
-/

namespace Chip8
set_option autoImplicit false

def fontStart : Nat := 0x50

/-- Sixteen glyphs of five rows, four pixels wide, from 0 to F. -/
def font : List UInt8 := [
  0xF0, 0x90, 0x90, 0x90, 0xF0,
  0x20, 0x60, 0x20, 0x20, 0x70,
  0xF0, 0x10, 0xF0, 0x80, 0xF0,
  0xF0, 0x10, 0xF0, 0x10, 0xF0,
  0x90, 0x90, 0xF0, 0x10, 0x10,
  0xF0, 0x80, 0xF0, 0x10, 0xF0,
  0xF0, 0x80, 0xF0, 0x90, 0xF0,
  0xF0, 0x10, 0x20, 0x40, 0x40,
  0xF0, 0x90, 0xF0, 0x90, 0xF0,
  0xF0, 0x90, 0xF0, 0x10, 0xF0,
  0xF0, 0x90, 0xF0, 0x90, 0x90,
  0xE0, 0x90, 0xE0, 0x90, 0xE0,
  0xF0, 0x80, 0x80, 0x80, 0xF0,
  0xE0, 0x90, 0x90, 0x90, 0xE0,
  0xF0, 0x80, 0xF0, 0x80, 0xF0,
  0xF0, 0x80, 0xF0, 0x80, 0x80]

structure Memory where
  cells : Vector UInt8 memorySize
  deriving DecidableEq

namespace Memory

def cell (address : UInt16) : Fin memorySize :=
  ⟨address.toNat % 0x1000 % memorySize, Nat.mod_lt _ (by decide)⟩

/-- Replaces the cells from `start` on by as many bytes. -/
def overwrite (m : Memory) (start : Nat) (bytes : List UInt8)
    (fits : start + bytes.length ≤ memorySize) : Memory where
  cells := ⟨(m.cells.toList.take start ++ bytes ++ m.cells.toList.drop (start + bytes.length)).toArray,
    by simp; omega⟩

def blank : Memory :=
  overwrite ⟨Vector.replicate memorySize 0⟩ fontStart font (by decide)

def read (m : Memory) (address : UInt16) : UInt8 := m.cells.get (cell address)

def write (m : Memory) (address : UInt16) (value : UInt8) : Memory :=
  ⟨m.cells.set (cell address).1 value (cell address).2⟩

/-- The big-endian word at an address and its successor. -/
def word (m : Memory) (address : UInt16) : UInt16 :=
  (m.read address).toUInt16 * 0x100 + (m.read (address + 1)).toUInt16

def slice (m : Memory) (address : UInt16) (count : Nat) : List UInt8 :=
  (List.range count).map fun k => m.read (address + UInt16.ofNat k)

def store (m : Memory) (address : UInt16) (bytes : List UInt8) : Memory :=
  match bytes with
  | [] => m
  | b :: bs => (m.write address b).store (address + 1) bs

/-- The address of the glyph of a digit, of which the low four bits count. -/
def glyph (digit : UInt8) : UInt16 := UInt16.ofNat fontStart + (digit % 0x10).toUInt16 * 5

/-- Copies a ROM into program space, or refuses one that does not fit and changes nothing. -/
def load (m : Memory) (rom : Rom) : Except RomError Memory :=
  if h : rom.size ≤ Rom.capacity then
    .ok (m.overwrite programStart rom.toList (by
      simp only [Rom.capacity, memorySize, programStart, Array.length_toList] at *; omega))
  else .error (.tooLarge rom.size Rom.capacity)

end Memory
end Chip8

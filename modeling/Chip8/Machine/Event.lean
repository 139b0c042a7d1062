import Chip8.Instruction.Mnemonic
import Chip8.Log

/-!
# What a machine reports

One event for each thing that a machine tells about itself, with its severity and its wording.
-/

namespace Chip8
set_option autoImplicit false

inductive Event where
  /-- A word was fetched and is about to be executed. -/
  | fetched (address word : UInt16)
  /-- A key ended a wait and its number went into the register. -/
  | resumed (key register : UInt8)
  /-- The machine waits for a key, to be put into the register. -/
  | waiting (register : UInt8)
  /-- A return found the stack empty; `pc` is the address after it. -/
  | returnIgnored (pc : UInt16)
  /-- A call found the stack full; `pc` is the return address that is lost. -/
  | returnDropped (pc : UInt16)
  | unknownIgnored (word : UInt16)
  | romLoaded (size : Nat)
  | machineReset
  deriving DecidableEq, Repr

namespace Event
open Hexadecimal

def level : Event → Level
  | fetched _ _ => .trace
  | romLoaded _ | machineReset => .info
  | _ => .debug

def message : Event → String
  | fetched address word =>
    s!"{padded 3 address.toNat}: {padded 4 word.toNat} {(Instruction.decode word).mnemonic}"
  | resumed key register =>
    s!"Key {upper key.toNat} pressed, resuming with V{upper register.toNat} = {upper key.toNat}"
  | waiting register => s!"Waiting for key press into V{upper register.toNat}"
  | returnIgnored pc => s!"Return with an empty stack ignored at {marked 3 pc.toNat}"
  | returnDropped pc => s!"Stack full, return address {marked 3 pc.toNat} dropped"
  | unknownIgnored word => s!"Ignoring unknown opcode {marked 4 word.toNat}"
  | romLoaded size => s!"Loaded {size} byte ROM at 0x200"
  | machineReset => "Machine reset"

def record (e : Event) : Record := ⟨e.level, e.message⟩

end Event
end Chip8

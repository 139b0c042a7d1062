import Chip8.Machine

/-!
# The emulator

A machine together with the ROM that it was started from, so that it can be started again, and
whether it is still as it was started.
-/

namespace Chip8
set_option autoImplicit false

structure Emulator where
  machine : Machine
  rom : Rom
  /-- No step was made since the start or the last reset. -/
  untouched : Bool
  deriving DecidableEq

namespace Emulator

/-- Starts a ROM, with `draws` random bytes already drawn, and reports the loading. -/
def start (rom : Rom) (draws : Nat) : Except RomError (Emulator × List Event) := do
  let memory ← Memory.blank.load rom
  return (⟨.start memory draws, rom, true⟩, [.romLoaded rom.size])

def reset (e : Emulator) : Except RomError (Emulator × List Event) := do
  let memory ← Memory.blank.load e.rom
  return (⟨e.machine.reset memory, e.rom, true⟩, [.romLoaded e.rom.size, .machineReset])

def step (e : Emulator) (keys : Keys) (random : RandomBytes) :
    Emulator × List UInt8 × List Event :=
  let o := e.machine.step keys random
  (⟨o.machine, e.rom, false⟩, o.polled, o.events)

/-- A number of steps. Of what they report, the events that a verbosity allows are added to `log`. -/
def steps (keys : Keys) (random : RandomBytes) (v : Verbosity) :
    Nat → Emulator → Array Event → Emulator × Array Event
  | 0, e, log => (e, log)
  | n + 1, e, log =>
    let (e, _, events) := e.step keys random
    steps keys random v n e (log ++ events.filter fun event => v.allows event.level)

def tick (e : Emulator) : Emulator := { e with machine := e.machine.tick }

/-- A tick, with the answer whether the tone is to be heard after it. -/
def countDown (e : Emulator) : Emulator × Bool :=
  let (machine, sounding) := e.machine.countDown
  ({ e with machine := machine }, sounding)

def toneActive (e : Emulator) : Bool := e.machine.toneActive

def clearDirty (e : Emulator) : Emulator := { e with machine := e.machine.clearDirty }

end Emulator
end Chip8

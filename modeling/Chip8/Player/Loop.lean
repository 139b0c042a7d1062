import Chip8.Emulator
import Chip8.Player.Desktop

/-!
# The main loop

The player in front of an emulator. A pass of the loop resets the machine if that is asked for; and
otherwise ticks the timers, makes the steps that are owed, switches the tone, shows the screen, and
rests until the next step is due. Each of the three paces has a moment from which it counts, which is
set to the clock again when something was done.

Every pass gives an account of what it did and at which readings of the clock it decided to.
-/

namespace Chip8
set_option autoImplicit false

/-- Microseconds between two ticks of the timers. -/
def tickPeriod : Nat := 1000000 / 60

/-- Microseconds between two updates of the window. -/
def redrawPeriod : Nat := 1000000 / 60

/-- Microseconds between two steps, at least one. -/
def stepPeriod (cyclesPerSecond : UInt32) : Nat := max (1000000 / cyclesPerSecond.toNat) 1

/-- Whole microseconds from one reading of the clock to another. -/
def elapsed (since now : Nat) : Nat := (now - since) / 1000

def darkColour : UInt32 := 0x2C5066

def litColour : UInt32 := 0x68BBED

def paint (s : Screen) : Array UInt32 :=
  s.colours.map fun c => if c = 0 then darkColour else litColour

structure Player where
  emulator : Emulator
  /-- The keys as the window showed them after its last update. -/
  keypad : Keypad
  /-- Microseconds between two steps. -/
  period : Nat
  lastStep : Nat
  lastTick : Nat
  lastRedraw : Nat

/-- What does not change while a player plays. -/
structure Stage where
  random : RandomBytes
  verbosity : Verbosity

inductive PlayerError where
  | rom (cause : RomError)
  | window (cause : WindowError)
  deriving DecidableEq, Repr

/-- An update of the window: the reading of the clock that let it through, and the new pixels if there
were any. -/
structure Redraw where
  reading : Nat
  pixels : Option (Array UInt32)

structure Account where
  reset : Bool := false
  /-- The reading that let a tick through. -/
  tick : Option Nat := none
  /-- The reading that let steps through, and their number. -/
  steps : Option (Nat × Nat) := none
  tone : Bool := false
  redraw : Option Redraw := none

inductive Verdict where
  | goesOn (player : Player)
  | closed
  | failed (error : PlayerError)

namespace Player

/-- The machine after a reset, with every pace counted from now. -/
def restarted (p : Player) (emulator : Emulator) (step tick redraw : Nat) : Player :=
  { p with emulator := emulator, lastStep := step, lastTick := tick, lastRedraw := redraw }

def tickDue (p : Player) (now : Nat) : Bool := tickPeriod ≤ elapsed p.lastTick now

def stepsDue (p : Player) (now : Nat) : Bool := p.period ≤ elapsed p.lastStep now

def redrawDue (p : Player) (now : Nat) : Bool := redrawPeriod ≤ elapsed p.lastRedraw now

def owed (p : Player) (now : Nat) : Nat := elapsed p.lastStep now / p.period

/-- Microseconds to rest at a reading of the clock. -/
def rest (p : Player) (now : Nat) : Nat := p.period - elapsed p.lastStep now

variable {m : Type → Type} [Monad m]

def reset (p : Player) (d : Desktop m) (v : Verbosity) : m (Account × Verdict) := do
  match p.emulator.reset with
  | .error cause => return ({ reset := true }, .failed (.rom cause))
  | .ok (emulator, events) =>
    d.log v (events.map Event.record)
    d.setTone false
    let step ← d.clock
    let tick ← d.clock
    let redraw ← d.clock
    return ({ reset := true }, .goesOn (p.restarted emulator step tick redraw))

def keepTimers (p : Player) (d : Desktop m) : m (Option Nat × Player) := do
  let now ← d.clock
  if p.tickDue now then
    let mark ← d.clock
    return (some now, { p with emulator := p.emulator.tick, lastTick := mark })
  else return (none, p)

def catchUp (p : Player) (d : Desktop m) (s : Stage) : m (Option (Nat × Nat) × Player) := do
  let now ← d.clock
  if p.stepsDue now then
    let owed := p.owed now
    let (emulator, events) := p.emulator.steps p.keypad.isDown s.random s.verbosity owed #[]
    d.log s.verbosity (events.toList.map Event.record)
    let mark ← d.clock
    return (some (now, owed), { p with emulator := emulator, lastStep := mark })
  else return (none, p)

/-- Updates the window if that is due, with new pixels if the screen was drawn on, and looks at the
keyboard. -/
def updateWindow (p : Player) (d : Desktop m) : m (Option Redraw × Except WindowError Player) := do
  let now ← d.clock
  if p.redrawDue now then
    let mark ← d.clock
    if p.emulator.machine.screen.dirty then
      let pixels := paint p.emulator.machine.screen
      match ← d.present pixels with
      | .error cause => return (some ⟨now, some pixels⟩, .error cause)
      | .ok () =>
        let down ← d.held
        return (some ⟨now, some pixels⟩, .ok { p with
          emulator := p.emulator.clearDirty, keypad := .sample down, lastRedraw := mark })
    else
      d.refresh
      let down ← d.held
      return (some ⟨now, none⟩, .ok { p with keypad := .sample down, lastRedraw := mark })
  else return (none, .ok p)

def pause (p : Player) (d : Desktop m) : m Unit := do
  let now ← d.clock
  if 0 < p.rest now then d.sleep (p.rest now)

def pass (p : Player) (d : Desktop m) (s : Stage) : m (Account × Verdict) := do
  if !(← d.isOpen) then return ({}, .closed)
  if (← d.held) .escape then return ({}, .closed)
  if (← d.isPressed .f1) && !p.emulator.untouched then p.reset d s.verbosity
  else
    let (tick, p) ← p.keepTimers d
    let (steps, p) ← p.catchUp d s
    let tone := p.emulator.toneActive
    d.setTone tone
    let (redraw, shown) ← p.updateWindow d
    let account : Account := { tick := tick, steps := steps, tone := tone, redraw := redraw }
    match shown with
    | .error cause => return (account, .failed (.window cause))
    | .ok p =>
      p.pause d
      return (account, .goesOn p)

inductive Ending where
  /-- The window was closed or the escape key pressed. -/
  | closed
  | failed (error : PlayerError)
  /-- As many passes were made as were asked for. -/
  | suspended (player : Player)

/-- At most a number of passes. The accounts are gathered by `note`, in order. -/
@[specialize]
def run {α : Type} (d : Desktop m) (s : Stage) (note : α → Account → α) :
    Nat → Player → α → m (α × Ending)
  | 0, p, notes => pure (notes, .suspended p)
  | n + 1, p, notes => do
    let (account, verdict) ← p.pass d s
    match verdict with
    | .goesOn p => run d s note n p (note notes account)
    | .closed => pure (note notes account, .closed)
    | .failed error => pure (note notes account, .failed error)

end Player
end Chip8

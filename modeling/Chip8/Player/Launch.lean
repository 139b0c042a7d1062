import Chip8.CommandLine.Usage
import Chip8.Player.Loop

/-!
# The program

From the command line to the exit code: the arguments, the ROM, the window, the beeper, the machine and
then the main loop.
-/

namespace Chip8
set_option autoImplicit false

structure Launch where
  exitCode : UInt32
  /-- Whether the program came as far as opening a window. -/
  begun : Bool

namespace Launch
variable {m : Type → Type} [Monad m]

def complaint : PlayerError → String
  | .rom cause => "Error: " ++ cause.message
  | .window cause => "Error: " ++ cause.inspect

def fail (d : Desktop m) (error : PlayerError) : m Launch := do
  d.complain (complaint error)
  return ⟨1, true⟩

/-- The beeper that the settings ask for; a silent one where there is none to be had. -/
def beeper (d : Desktop m) (settings : Settings) : m Beeper := do
  if settings.mute then return .silent
  else match Beeper.start settings.tone (← d.soundCard) with
    | .ok (beeper, records) =>
      d.log settings.verbosity records
      return beeper
    | .error cause =>
      d.log settings.verbosity [⟨.warn, "Running without sound: " ++ cause.message⟩]
      return .silent

def play (d : Desktop m) (passes : Nat) (settings : Settings) (rom : Rom) : m Launch := do
  let step ← d.clock
  let tick ← d.clock
  let redraw ← d.clock
  match ← d.openWindow "CHIP-8" screenWidth screenHeight settings.scale with
  | .error cause => fail d (.window cause)
  | .ok () =>
    d.install (← beeper d settings)
    match Emulator.start rom 0 with
    | .error cause => fail d (.rom cause)
    | .ok (emulator, events) =>
      d.log settings.verbosity (events.map Event.record)
      d.log settings.verbosity [⟨.info,
        s!"Running {settings.rom} at {settings.cyclesPerSecond} instructions per second"⟩]
      let stage : Stage := ⟨← d.random, settings.verbosity⟩
      let player : Player :=
        ⟨emulator, .released, stepPeriod settings.cyclesPerSecond, step, tick, redraw⟩
      match ← Player.run d stage (fun _ _ => ()) passes player () with
      | (_, .failed error) => fail d error
      | _ => return ⟨0, true⟩

/-- Reads the ROM that the settings name and plays it. -/
def start (d : Desktop m) (passes : Nat) (settings : Settings) : m Launch := do
  match Rom.ofFile settings.rom (← d.readFile settings.rom) with
  | .error cause =>
    d.log settings.verbosity [⟨.error, cause.message⟩]
    d.complain cause.message
    return ⟨1, false⟩
  | .ok rom =>
    d.log settings.verbosity [Rom.readRecord settings.rom rom]
    play d passes settings rom

/-- Runs the program on a command line, of which the first argument names the program, for at most a
number of passes of the main loop. -/
def program (d : Desktop m) (passes : Nat) (args : List String) : m Launch := do
  match CommandLine.parse args.tail with
  | .error stop =>
    (stop.output (args.head?.bind CommandLine.fileName?)).forM d.print
    if stop.exitCode != 0 then d.complain stop.message
    return ⟨stop.exitCode, false⟩
  | .ok settings => start d passes settings

end Launch
end Chip8

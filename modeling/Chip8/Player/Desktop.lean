import Chip8.CommandLine.Settings
import Chip8.Files
import Chip8.Keypad
import Chip8.Machine
import Chip8.Sound.Beeper
import Chip8.Text.Quoted

/-!
# The desktop

What the player needs from the computer that it runs on: files, two text outputs, a window with a
keyboard, a sound card and a clock. The operations live in a monad of the desktop's choice, so that one
player runs on a real desktop and on a rehearsed one.
-/

namespace Chip8
set_option autoImplicit false

inductive WindowError where
  | notCreated (text : String)
  | notUpdated (text : String)
  deriving DecidableEq, Repr

/-- The error as a constructor with its text in quotes. -/
def WindowError.inspect : WindowError → String
  | notCreated text => "WindowCreate(" ++ Quoted.encode text ++ ")"
  | notUpdated text => "UpdateFailed(" ++ Quoted.encode text ++ ")"

structure Desktop (m : Type → Type) where
  readFile : String → m (Except ReadError (Array UInt8))
  /-- Writes text and a line break to standard output. -/
  print : String → m Unit
  /-- Writes text and a line break to standard error. -/
  complain : String → m Unit
  random : m RandomBytes
  openWindow : (title : String) → (width height : Nat) → Scale → m (Except WindowError Unit)
  soundCard : m (Option SoundCard)
  /-- Puts a beeper to work. -/
  install : Beeper → m Unit
  setTone : Bool → m Unit
  isOpen : m Bool
  /-- The keys that the window shows as held. -/
  held : m (KeyboardKey → Bool)
  /-- Whether a key went down since the window was last updated. -/
  isPressed : KeyboardKey → m Bool
  /-- Nanoseconds since some moment. -/
  clock : m Nat
  /-- Waits for a number of microseconds. -/
  sleep : Nat → m Unit
  /-- Updates the window with new pixels. -/
  present : Array UInt32 → m (Except WindowError Unit)
  /-- Updates the window and leaves its pixels. -/
  refresh : m Unit

namespace Desktop
variable {m : Type → Type} [Monad m]

def log (d : Desktop m) (v : Verbosity) (records : List Record) : m Unit :=
  (Record.lines v records).forM d.print

end Desktop
end Chip8

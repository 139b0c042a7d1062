import Chip8.Player.Launch
import Chip8.Player.Terminal

/-!
# The command line program

The player on a terminal. The screen is printed from the top left corner on. There is no keyboard and
no sound card, and the program runs until it is interrupted.
-/

namespace Chip8
set_option autoImplicit false

def terminalReadFile (path : String) : IO (Except ReadError (Array UInt8)) := do
  try
    return .ok (← IO.FS.readBinFile path).data
  catch
    | .noFileOrDirectory .. => return .error .notFound
    | other => return .error (.other (toString other))

def terminalPrint (text : String) : IO Unit := do
  IO.println text
  (← IO.getStdout).flush

def terminalDesktop : Desktop IO where
  readFile := terminalReadFile
  print := terminalPrint
  complain text := IO.eprintln text
  random := do
    let seed ← IO.rand 0 0xFFFFFFFF
    return fun k => (hash (seed, k)).toUInt8
  openWindow _ _ _ _ := do
    IO.print "\x1b[2J"
    return .ok ()
  soundCard := return none
  install _ := return ()
  setTone _ := return ()
  isOpen := return true
  held := return fun _ => false
  isPressed _ := return false
  clock := IO.monoNanosNow
  sleep micros := IO.sleep (UInt32.ofNat ((micros + 999) / 1000))
  present pixels := do
    IO.print "\x1b[H"
    (Terminal.picture pixels).forM terminalPrint
    return .ok ()
  refresh := return ()

end Chip8

/-- Runs the program for as long as a word can count passes. -/
def main (args : List String) : IO UInt32 := do
  return (← Chip8.Launch.program Chip8.terminalDesktop 0x4000000000000000 ("chip8" :: args)).exitCode

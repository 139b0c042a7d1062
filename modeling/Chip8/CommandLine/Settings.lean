import Chip8.Log
import Chip8.Number.Binary

/-!
# Settings

What the command line decides: the ROM, the pace, the size of the window, the tone and the log. Each
option that takes a value has a name, perhaps a letter, a default, and a rule for its values.
-/

namespace Chip8
set_option autoImplicit false

/-- Window pixels per cell of the screen. -/
inductive Scale where
  | x1 | x2 | x4 | x8 | x16 | x32
  deriving DecidableEq, Repr

namespace Scale

def factor : Scale → Nat
  | x1 => 1
  | x2 => 2
  | x4 => 4
  | x8 => 8
  | x16 => 16
  | x32 => 32

def ofText? : String → Option Scale
  | "1" => some x1
  | "2" => some x2
  | "4" => some x4
  | "8" => some x8
  | "16" => some x16
  | "32" => some x32
  | _ => none

end Scale

structure Settings where
  rom : String
  cyclesPerSecond : UInt32
  scale : Scale
  /-- The pitch of the tone in hertz. -/
  tone : Float32
  mute : Bool
  verbosity : Verbosity

namespace CommandLine

inductive ValuedOption where
  | cyclesPerSecond | scale | tone | logLevel
  deriving DecidableEq, Repr

inductive ValueFault where
  | notPositive
  | notAllowed
  deriving DecidableEq, Repr

namespace ValuedOption

def all : List ValuedOption := [cyclesPerSecond, scale, tone, logLevel]

def name : ValuedOption → String
  | cyclesPerSecond => "cycles-per-second"
  | scale => "scale"
  | tone => "tone"
  | logLevel => "log-level"

def letter? : ValuedOption → Option Char
  | cyclesPerSecond => some 'c'
  | scale => some 's'
  | tone => none
  | logLevel => none

def byDefault : ValuedOption → String
  | cyclesPerSecond => "1000"
  | scale => "16"
  | tone => "1000"
  | logLevel => "info"

def label (o : ValuedOption) : String := s!"--{o.name} <{o.name}>"

def isPositiveNumber (value : String) : Bool := (Numeral.parse? value).any Numeral.isPositive

def fault? (o : ValuedOption) (value : String) : Option ValueFault :=
  match o with
  | cyclesPerSecond | tone => if isPositiveNumber value then none else some .notPositive
  | scale => if (Scale.ofText? value).isSome then none else some .notAllowed
  | logLevel => if (Verbosity.ofText? value).isSome then none else some .notAllowed

end ValuedOption
end CommandLine
end Chip8

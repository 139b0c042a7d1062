/-!
# ROM images

A ROM is the bytes of a program. It has to fit between the address where programs start and the end
of memory.
-/

namespace Chip8
set_option autoImplicit false

abbrev Rom := Array UInt8

def memorySize : Nat := 0xFFF

def programStart : Nat := 0x200

def Rom.capacity : Nat := memorySize - programStart

inductive ReadError where
  | notFound
  | notADirectory
  | isADirectory
  | nameTooLong
  | nulInName
  | other (text : String)
  deriving DecidableEq, Repr

def ReadError.message : ReadError → String
  | notFound => "No such file or directory (os error 2)"
  | notADirectory => "Not a directory (os error 20)"
  | isADirectory => "Is a directory (os error 21)"
  | nameTooLong => "File name too long (os error 36)"
  | nulInName => "file name contained an unexpected NUL byte"
  | other text => text

inductive RomError where
  | tooLarge (size max : Nat)
  | unreadable (path : String) (cause : ReadError)
  deriving DecidableEq, Repr

def RomError.message : RomError → String
  | tooLarge size max => s!"ROM is {size} bytes but only {max} bytes are available"
  | unreadable path cause => s!"could not read ROM {path}: {cause.message}"

end Chip8

import Chip8.CommandLine.Arguments

/-!
# What the command line says

The text of help and version, which go to standard output, and the message for every other reason not
to start.
-/

namespace Chip8.CommandLine
set_option autoImplicit false

/-- The last name of a path, unless the path ends in the root or in two dots. -/
def fileName? (path : String) : Option String :=
  match ((path.splitOn "/").filter fun part => part != "" && part != ".").getLast? with
  | some ".." => none
  | name => name

/-- The program's title, with which help and version open. A program file with a blank in its name
goes by that name. -/
def title (program : Option String) : String :=
  let name := match program with
    | some file => if file.contains ' ' then file.replace " " "-" else "CHIP-8"
    | none => "CHIP-8"
  name ++ " 0.1.0"

def helpLines (program : Option String) : List String := [
  title program,
  "Hugo Tunius <h@tunius.se>",
  "A CHIP-8 emulator",
  "",
  "USAGE:",
  "    " ++ program.getD "CHIP-8" ++ " [FLAGS] [OPTIONS] <ROM>",
  "",
  "FLAGS:",
  "    -h, --help       Prints help information",
  "        --mute       Run without sound",
  "    -V, --version    Prints version information",
  "",
  "OPTIONS:",
  "    -c, --cycles-per-second <cycles-per-second>    Instructions executed per second [default: 1000]",
  "        --log-level <log-level>",
  "            Maximum level of log messages [default: info]  " ++
    "[possible values: off, error, warn, info, debug, trace]",
  "",
  "    -s, --scale <scale>",
  "            Window pixels per CHIP-8 pixel [default: 16]  [possible values: 1, 2, 4, 8, 16, 32]",
  "",
  "        --tone <tone>                              Frequency of the buzzer in Hz [default: 1000]",
  "",
  "ARGS:",
  "    <ROM>    The CHIP-8 ROM to run"]

namespace Stop

/-- The message on standard error. Help and version have none. -/
def message : Stop → String
  | help | version => ""
  | unknownArgument text =>
    s!"error: Found argument '{text}' which wasn't expected, or isn't valid in this context"
  | missingRom => "error: The following required arguments were not provided:"
  | notAllowed option value => s!"error: '{value}' isn't a valid value for '{option.label}'"
  | notPositive option value =>
    s!"error: Invalid value for '{option.label}': expected a positive number, got {value}"
  | repeated label =>
    s!"error: The argument '{label}' was provided more than once, but cannot be used multiple times"
  | notConvertible value => s!"error: Invalid value: The argument '{value}' isn't a valid value"

/-- The lines on standard output, which only help and version have. -/
def output (program : Option String) : Stop → List String
  | help => helpLines program
  | version => [title program]
  | _ => []

/-- Help and version are what was asked for; every other stop is a failure. -/
def exitCode : Stop → UInt32
  | help | version => 0
  | _ => 1

end Stop
end Chip8.CommandLine

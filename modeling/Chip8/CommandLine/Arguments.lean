import Chip8.CommandLine.Settings

/-!
# Arguments

The command line read from left to right. An argument that starts with two dashes is a long option or
flag, one that starts with a dash and is longer is a short one, and anything else is an operand or the
value of the option before it. A value may be attached, after a long name behind `=` and after a
letter directly or behind `=`. After the argument `--` all others are operands.

Help, version, an unknown option and a second operand end the reading at once. Everything else is
judged when all arguments are read: first that there is a ROM, then the values, then repetitions.
-/

namespace Chip8.CommandLine
set_option autoImplicit false

/-- Why the program ends before it starts. -/
inductive Stop where
  | help
  | version
  | unknownArgument (text : String)
  | missingRom
  | notAllowed (option : ValuedOption) (value : String)
  | notPositive (option : ValuedOption) (value : String)
  /-- An option or flag, as messages name it, was given more than once. -/
  | repeated (label : String)
  /-- A positive number that is no whole number of 32 bits. -/
  | notConvertible (value : String)
  deriving DecidableEq, Repr

/-- What an argument is by its spelling alone. -/
inductive Token where
  | operand (text : String)
  | separator
  | option (option : ValuedOption) (attached : Option String)
  | mute
  | help
  | version
  | unknown (text : String)
  deriving DecidableEq, Repr

namespace Token

/-- An attached value, less the equals signs before it. -/
def attachedValue (cs : List Char) : String := String.ofList (cs.dropWhile (· == '='))

/-- A long option or flag, less its dashes. What is attached to a flag is ignored. -/
def ofLong (cs : List Char) : Token :=
  let name := String.ofList (cs.takeWhile (· != '='))
  let attached := match cs.dropWhile (· != '=') with
    | [] => none
    | tail => some (attachedValue tail)
  match ValuedOption.all.find? fun o => o.name == name with
  | some o => option o attached
  | none =>
    if name == "mute" then mute
    else if name == "help" then help
    else if name == "version" then version
    else unknown ("--" ++ name)

/-- A letter with what follows it. -/
def ofShort (c : Char) (cs : List Char) : Token :=
  match ValuedOption.all.find? fun o => o.letter? == some c with
  | some o => option o (if cs.isEmpty then none else some (attachedValue cs))
  | none =>
    if c == 'h' then help
    else if c == 'V' then version
    else unknown (String.ofList ['-', c])

def ofText (text : String) : Token :=
  match text.toList with
  | ['-', '-'] => separator
  | '-' :: '-' :: cs => ofLong (cs.dropWhile (· == '-'))
  | '-' :: c :: cs => ofShort c cs
  | _ => operand text

end Token

/-- What the arguments say, before it is judged. -/
structure Arguments where
  rom : Option String := none
  /-- How often sound was switched off. -/
  mutes : Nat := 0
  /-- The options in the order in which they were given, with their values. -/
  given : List (ValuedOption × Option String) := []
  deriving DecidableEq, Repr

namespace Arguments

def give (a : Arguments) (o : ValuedOption) (value : Option String) : Arguments :=
  { a with given := a.given ++ [(o, value)] }

/-- The first operand is the ROM and there is no second. -/
def operand (a : Arguments) (text : String) : Except Stop Arguments :=
  match a.rom with
  | none => .ok { a with rom := some text }
  | some _ => .error (.unknownArgument text)

/-- Reads arguments of which all are operands. -/
def readOperands (a : Arguments) : List String → Except Stop Arguments
  | [] => .ok a
  | text :: rest => do (← a.operand text).readOperands rest

/-- Notes that the option that waits for a value gets none. -/
def settle (a : Arguments) (awaiting : Option ValuedOption) : Arguments :=
  match awaiting with
  | some o => a.give o none
  | none => a

/-- Reads arguments while an option may wait for its value, which the next argument is if it is no
option itself. -/
def read (a : Arguments) (awaiting : Option ValuedOption) : List String → Except Stop Arguments
  | [] => .ok (a.settle awaiting)
  | text :: rest =>
    match awaiting, Token.ofText text with
    | some o, .operand value => (a.give o (some value)).read none rest
    | none, .operand text => do (← a.operand text).read none rest
    | _, .separator => (a.settle awaiting).readOperands rest
    | _, .option o (some value) => ((a.settle awaiting).give o (some value)).read none rest
    | _, .option o none => (a.settle awaiting).read (some o) rest
    | _, .mute => { a.settle awaiting with mutes := a.mutes + 1 }.read none rest
    | _, .help => .error .help
    | _, .version => .error .version
    | _, .unknown text => .error (.unknownArgument text)

def values (a : Arguments) (o : ValuedOption) : List String :=
  match a.given.filterMap fun (p, value) => if p = o then value else none with
  | [] => [o.byDefault]
  | vs => vs

/-- The value of an option: the first that was given. -/
def value (a : Arguments) (o : ValuedOption) : String := (a.values o).headD o.byDefault

def occurrences (a : Arguments) (o : ValuedOption) : Nat := a.given.countP fun (p, _) => p = o

def refusal? (o : ValuedOption) (value : String) : Option Stop :=
  (o.fault? value).map fun
    | .notPositive => .notPositive o value
    | .notAllowed => .notAllowed o value

/-- What is wrong with an option, if anything: its first bad value, or else its repetition. -/
def problem? (a : Arguments) (o : ValuedOption) : Option Stop :=
  match (a.values o).findSome? (refusal? o) with
  | some stop => some stop
  | none => if 1 < a.occurrences o then some (.repeated o.label) else none

def check (a : Arguments) : Except Stop String :=
  match a.rom with
  | none => .error .missingRom
  | some rom =>
    match ValuedOption.all.findSome? a.problem? with
    | some stop => .error stop
    | none => if 1 < a.mutes then .error (.repeated "--mute") else .ok rom

def settings (a : Arguments) : Except Stop Settings := do
  let rom ← a.check
  match Numeral.whole? (a.value .cyclesPerSecond), Numeral.parse? (a.value .tone) with
  | none, _ => .error (.notConvertible (a.value .cyclesPerSecond))
  | _, none => .error (.notConvertible (a.value .tone))
  | some cycles, some tone => .ok {
      rom := rom
      cyclesPerSecond := cycles
      scale := (Scale.ofText? (a.value .scale)).getD .x16
      tone := tone.toFloat32
      mute := 0 < a.mutes
      verbosity := (Verbosity.ofText? (a.value .logLevel)).getD (.upTo .info) }

end Arguments

def parse (args : List String) : Except Stop Settings := do
  (← Arguments.read {} none args).settings

end Chip8.CommandLine

/-!
# Log records

A record is a line of text with a severity. A verbosity says which severities are kept.
-/

namespace Chip8
set_option autoImplicit false

/-- Severities, the gravest first. -/
inductive Level where
  | error | warn | info | debug | trace
  deriving DecidableEq, Repr

namespace Level

/-- The place in the order of severities, from one. -/
def rank : Level → Nat
  | error => 1
  | warn => 2
  | info => 3
  | debug => 4
  | trace => 5

def label : Level → String
  | error => "ERROR"
  | warn => "WARN"
  | info => "INFO"
  | debug => "DEBUG"
  | trace => "TRACE"

end Level

/-- How much is logged: nothing, or everything down to a severity. -/
inductive Verbosity where
  | off
  | upTo (level : Level)
  deriving DecidableEq, Repr

namespace Verbosity

def allows : Verbosity → Level → Bool
  | off, _ => false
  | upTo least, level => level.rank ≤ least.rank

def ofText? : String → Option Verbosity
  | "off" => some off
  | "error" => some (upTo .error)
  | "warn" => some (upTo .warn)
  | "info" => some (upTo .info)
  | "debug" => some (upTo .debug)
  | "trace" => some (upTo .trace)
  | _ => none

end Verbosity

structure Record where
  level : Level
  text : String
  deriving DecidableEq, Repr

namespace Record

def line (r : Record) : String := r.level.label ++ " " ++ r.text

def lines (v : Verbosity) (rs : List Record) : List String :=
  (rs.filter fun r => v.allows r.level).map line

end Record
end Chip8

/-!
# Numbers written in decimal

The value of a decimal text, exactly: a sign, an integer and a power of ten, or one of the words
`inf`, `infinity` and `nan` in any case. A text is an optional sign, digits with at most one point and
at least one digit, and an optional exponent after `e` or `E`. There are no blanks or underscores and
only the digits 0 to 9.

A second reading takes whole numbers of 32 bits, with an optional plus sign.
-/

namespace Chip8
set_option autoImplicit false

inductive Numeral where
  /-- The number `digits * 10 ^ exponent`, or its negative. -/
  | finite (negative : Bool) (digits : Nat) (exponent : Int)
  | infinite (negative : Bool)
  | nan
  deriving DecidableEq, Repr

namespace Numeral

def ofDigits (ds : List Char) : Nat := ds.foldl (fun n c => n * 10 + (c.toNat - 48)) 0

def splitSign : List Char → Bool × List Char
  | '-' :: cs => (true, cs)
  | '+' :: cs => (false, cs)
  | cs => (false, cs)

/-- Digits that are read up to a number of at least 65536 and skipped from there on, so that no text
asks for a power of ten out of all proportion. -/
def boundedOfDigits (ds : List Char) : Nat :=
  ds.foldl (fun n c => if n < 0x10000 then n * 10 + (c.toNat - 48) else n) 0

/-- An exponent: an optional sign and at least one digit. -/
def exponent? (cs : List Char) : Option Int :=
  let (negative, ds) := splitSign cs
  if ds.isEmpty || !ds.all Char.isDigit then none
  else some (if negative then -(boundedOfDigits ds : Int) else boundedOfDigits ds)

def splitFraction : List Char → List Char × List Char
  | '.' :: cs => (cs.takeWhile Char.isDigit, cs.dropWhile Char.isDigit)
  | cs => ([], cs)

/-- Digits, point and exponent, as an integer and a power of ten. -/
def magnitude? (cs : List Char) : Option (Nat × Int) :=
  let whole := cs.takeWhile Char.isDigit
  let (fraction, rest) := splitFraction (cs.dropWhile Char.isDigit)
  let digits := whole ++ fraction
  if digits.isEmpty then none
  else match rest with
    | [] => some (ofDigits digits, -(fraction.length : Int))
    | c :: cs =>
      if c == 'e' || c == 'E' then
        (exponent? cs).map fun e => (ofDigits digits, e - fraction.length)
      else none

def parse? (text : String) : Option Numeral :=
  let (negative, cs) := splitSign text.toList
  match magnitude? cs with
  | some (digits, exponent) => some (finite negative digits exponent)
  | none =>
    let word := String.ofList (cs.map Char.toLower)
    if word == "inf" || word == "infinity" then some (infinite negative)
    else if word == "nan" then some nan
    else none

/-- A whole number of 32 bits: an optional plus sign and at least one digit. -/
def whole? (text : String) : Option UInt32 :=
  let ds := match text.toList with
    | '+' :: cs => cs
    | cs => cs
  if ds.isEmpty || !ds.all Char.isDigit then none
  else if ofDigits ds < UInt32.size then some (UInt32.ofNat (ofDigits ds)) else none

end Numeral
end Chip8

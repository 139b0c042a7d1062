import Chip8.Number.Numeral

/-!
# Nearest binary numbers

The bit pattern of the binary floating-point number nearest to an exact fraction, a tie going to the
even neighbour. Patterns of numbers that are not negative grow with the numbers, so one formula covers
subnormal numbers, the carry into the next binade and the step to infinity.
-/

namespace Chip8
set_option autoImplicit false

structure BinaryFormat where
  precision : Nat
  /-- The exponent of the least positive number. -/
  minExponent : Int
  infinity : Nat
  signBit : Nat
  /-- The pattern of a number that is none. -/
  nan : Nat
  deriving DecidableEq, Repr

def binary32 : BinaryFormat := ⟨24, -149, 0x7F800000, 0x80000000, 0x7FC00000⟩

def binary64 : BinaryFormat :=
  ⟨53, -1074, 0x7FF0000000000000, 0x8000000000000000, 0x7FF8000000000000⟩

namespace BinaryFormat

/-- The whole number nearest to a fraction, a tie going to the even one. -/
def nearest (num den : Nat) : Nat :=
  let q := num / den
  let r := num % den
  if 2 * r < den || (2 * r == den && q % 2 == 0) then q else q + 1

/-- The greatest `k` with `2 ^ k` at most the positive fraction `num / den`. -/
def log2 (num den : Nat) : Int :=
  let k : Int := (Nat.log2 num : Int) - Nat.log2 den
  if den <<< k.toNat ≤ num <<< (-k).toNat then k else k - 1

/-- The pattern of the number nearest to `num / den`. -/
def round (f : BinaryFormat) (num den : Nat) : Nat :=
  if num = 0 then 0
  else
    let unit := max (log2 num den - (f.precision - 1 : Nat)) f.minExponent
    let significand := nearest (num <<< (-unit).toNat) (den <<< unit.toNat)
    min ((unit - f.minExponent).toNat <<< (f.precision - 1) + significand) f.infinity

end BinaryFormat

namespace Numeral

/-- The pattern of the nearest number of a format, without its sign. -/
def magnitudeBits (f : BinaryFormat) : Numeral → Nat
  | finite _ digits exponent =>
    f.round (digits * Nat.pow 10 exponent.toNat) (Nat.pow 10 (-exponent).toNat)
  | infinite _ => f.infinity
  | nan => f.nan

def isNegative : Numeral → Bool
  | finite negative _ _ => negative
  | infinite negative => negative
  | nan => false

def toFloat32 (n : Numeral) : Float32 :=
  let sign := if n.isNegative then binary32.signBit else 0
  .ofBits (UInt32.ofNat (sign + n.magnitudeBits binary32))

/-- Whether the nearest number of 64 bits is greater than zero. -/
def isPositive : Numeral → Bool
  | finite negative digits exponent =>
    !negative && 0 < (finite negative digits exponent).magnitudeBits binary64
  | infinite negative => !negative
  | nan => false

end Numeral
end Chip8

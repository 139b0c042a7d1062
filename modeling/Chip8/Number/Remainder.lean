/-!
# The remainder of binary floating-point numbers

The remainder of a division whose quotient is cut to a whole number. It is exact: both numbers are
whole multiples of one power of two, and so is the remainder, which is no longer than the divisor.
-/

namespace Chip8.Float32Parts
set_option autoImplicit false

/-- A finite number as a sign, a significand and the exponent of its unit, counted from the unit of
subnormal numbers. -/
structure Parts where
  negative : Bool
  significand : Nat
  exponent : Nat
  deriving DecidableEq, Repr

def split (x : Float32) : Parts :=
  let bits := x.toBits.toNat
  let biased := bits / 0x800000 % 0x100
  let fraction := bits % 0x800000
  let negative : Bool := 0x80000000 ≤ bits
  if biased = 0 then ⟨negative, fraction, 0⟩ else ⟨negative, 0x800000 + fraction, biased - 1⟩

/-- The magnitude in units of subnormal numbers. -/
def Parts.units (p : Parts) : Nat := p.significand <<< p.exponent

/-- The number of a sign and a magnitude in units of subnormal numbers, of which the 24 leading bits
count. -/
def join (negative : Bool) (units : Nat) : Float32 :=
  let excess := Nat.log2 units + 1 - 24
  let bits := excess * 0x800000 + units >>> excess
  .ofBits (UInt32.ofNat ((if negative then 0x80000000 else 0) + bits))

end Chip8.Float32Parts

namespace Chip8
set_option autoImplicit false

/-- What is left of `x` when `y` is taken away as often as it fits; it has the sign of `x`. -/
def remainder32 (x y : Float32) : Float32 :=
  if x.isNaN || y.isNaN || x.isInf || y == 0 then .ofBits 0x7FC00000
  else if y.isInf then x
  else
    let a := Float32Parts.split x
    Float32Parts.join a.negative (a.units % (Float32Parts.split y).units)

end Chip8

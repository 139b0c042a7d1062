/-!
# Hexadecimal text

Numbers as hexadecimal digits, with and without a least width. The digits are written most
significant first and a number never loses digits to the width.
-/

namespace Chip8.Hexadecimal
set_option autoImplicit false

/-- Lower-case digits, `0` for zero. -/
def lower (n : Nat) : String := String.ofList (Nat.toDigits 16 n)

/-- Upper-case digits, `0` for zero. -/
def upper (n : Nat) : String := String.ofList ((Nat.toDigits 16 n).map Char.toUpper)

/-- At least `width` lower-case digits, filled up with zeros on the left. -/
def padded (width n : Nat) : String :=
  String.ofList ((Nat.toDigits 16 n).leftpad width '0')

/-- The mark `0x` before at least `width` lower-case digits. -/
def marked (width n : Nat) : String := "0x" ++ padded width n

end Chip8.Hexadecimal

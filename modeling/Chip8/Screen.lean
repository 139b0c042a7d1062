/-!
# The screen

64 by 32 cells, row by row, each 0 or 1, and a mark that something was drawn since the mark was last
cleared. Sprites are eight pixels wide, wrap around both edges and are drawn by exclusive or.

Single pixels are addressed by 64-bit coordinates: the cell of `(x, y)` is `64 * y + x`, where both
operations and the index are checked in this order.
-/

namespace Chip8
set_option autoImplicit false

def screenWidth : Nat := 64

def screenHeight : Nat := 32

def screenSize : Nat := 2048

inductive PixelError where
  | productOverflow
  | sumOverflow
  | outOfBounds (index : Nat)
  deriving DecidableEq, Repr

def PixelError.message : PixelError → String
  | productOverflow => "attempt to multiply with overflow"
  | sumOverflow => "attempt to add with overflow"
  | outOfBounds index => s!"index out of bounds: the len is {screenSize} but the index is {index}"

structure Screen where
  cells : Vector UInt8 screenSize
  dirty : Bool
  deriving DecidableEq

namespace Screen

/-- All dark, and to be shown. -/
def blank : Screen := ⟨Vector.replicate screenSize 0, true⟩

/-- The cell of a pair of coordinates, in exact arithmetic bounded by 64-bit words. -/
def index (x y : UInt64) : Except PixelError (Fin screenSize) :=
  let row := y.toNat * screenWidth
  if UInt64.size ≤ row then .error .productOverflow
  else if UInt64.size ≤ row + x.toNat then .error .sumOverflow
  else if h : row + x.toNat < screenSize then .ok ⟨row + x.toNat, h⟩
  else .error (.outOfBounds (row + x.toNat))

def pixel (s : Screen) (x y : UInt64) : Except PixelError UInt8 := do
  let k ← index x y
  return s.cells.get k

def setPixel (s : Screen) (x y : UInt64) (on : Bool) : Except PixelError Screen := do
  let k ← index x y
  return ⟨s.cells.set k.1 on.toUInt8 k.2, true⟩

def clear (_ : Screen) : Screen := ⟨Vector.replicate screenSize 0, true⟩

def clearDirty (s : Screen) : Screen := { s with dirty := false }

/-- The cells as colours 0x00RRGGBB, white where lit and black elsewhere. -/
def colours (s : Screen) : Array UInt32 :=
  s.cells.toArray.map fun c => if c = 1 then 0xFFFFFF else 0

/-- The cell of a column and a row, both wrapped around. -/
def wrapped (x y : Nat) : Fin screenSize :=
  ⟨y % screenHeight * screenWidth + x % screenWidth, by
    have hx : x % screenWidth < 64 := Nat.mod_lt _ (by decide)
    have hy : y % screenHeight < 32 := Nat.mod_lt _ (by decide)
    simp only [screenSize, screenWidth] at *
    omega⟩

/-- The cells under the set bits of one row byte, leftmost bit first. -/
def rowCells (x y : Nat) (row : UInt8) : List (Fin screenSize) :=
  (List.range 8).filterMap fun k => if row.toNat.testBit (7 - k) then some (wrapped (x + k) y) else none

def spriteCells (x y : Nat) : List UInt8 → List (Fin screenSize)
  | [] => []
  | row :: rows => rowCells x y row ++ spriteCells x (y + 1) rows

/-- Flips one cell. The flag tells whether any flip so far put out a lit cell. -/
def flip (drawing : Vector UInt8 screenSize × Bool) (k : Fin screenSize) :
    Vector UInt8 screenSize × Bool :=
  let (cells, collided) := drawing
  let old := cells.get k
  (cells.set k.1 (old ^^^ 1) k.2, collided || old == 1)

/-- Draws a sprite with its top left corner at `(x, y)`; tells whether it put out a lit cell. -/
def draw (s : Screen) (x y : UInt8) (rows : List UInt8) : Screen × Bool :=
  let (cells, collided) := (spriteCells x.toNat y.toNat rows).foldl flip (s.cells, false)
  (⟨cells, true⟩, collided)

end Screen
end Chip8

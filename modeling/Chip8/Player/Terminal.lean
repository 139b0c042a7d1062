import Chip8.Player.Loop

/-!
# Pixels on a terminal

A picture as text, two rows of pixels to a line.
-/

namespace Chip8.Terminal
set_option autoImplicit false

/-- The character for two pixels, one above the other. -/
def block (upper lower : Bool) : Char :=
  match upper, lower with
  | true, true => '█'
  | true, false => '▀'
  | false, true => '▄'
  | false, false => ' '

/-- The lines of a picture as wide and high as the screen. -/
def picture (pixels : Array UInt32) : List String :=
  let lit (x y : Nat) : Bool := pixels[y * screenWidth + x]? == some litColour
  (List.range (screenHeight / 2)).map fun line => String.ofList
    ((List.range screenWidth).map fun x => block (lit x (2 * line)) (lit x (2 * line + 1)))

end Chip8.Terminal

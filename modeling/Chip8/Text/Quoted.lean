import Chip8.Text.Combining
import Chip8.Text.Hexadecimal
import Chip8.Text.Unprintable

/-!
# Quoted text

A text between double quotes in which quotes, backslashes and every character that cannot be seen by
itself are escaped: the usual controls by a letter or digit, others by their code in braces.
-/

namespace Chip8.Quoted
set_option autoImplicit false

def escape (c : Char) : String :=
  match c with
  | '"' => "\\\""
  | '\\' => "\\\\"
  | '\n' => "\\n"
  | '\r' => "\\r"
  | '\t' => "\\t"
  | '\x00' => "\\0"
  | _ =>
    if isUnprintable c || isCombining c then
      "\\u\x7b" ++ Hexadecimal.lower c.toNat ++ "\x7d"
    else String.singleton c

def encode (text : String) : String := "\"" ++ String.join (text.toList.map escape) ++ "\""

end Chip8.Quoted

import Endian.Text.Hidden

/-!
# Quoted text

A text between double quotes in which every character can be told apart: quotes, backslashes and
the usual control characters have two-character escapes, any other character that would not show
by itself is written by its code point in hexadecimal.
-/

namespace Endian.Text.Quoted

/-- One character as it stands between the quotes. -/
def escape : Char → List Char
  | '\x00' => ['\\', '0']
  | '\t' => ['\\', 't']
  | '\r' => ['\\', 'r']
  | '\n' => ['\\', 'n']
  | '"' => ['\\', '"']
  | '\\' => ['\\', '\\']
  | c => if isHidden c then ['\\', 'u', '\x7b'] ++ Nat.toDigits 16 c.toNat ++ ['\x7d'] else [c]

/-- The text between quotes. -/
def quote (s : String) : String :=
  String.ofList (['"'] ++ s.toList.flatMap escape ++ ['"'])

end Endian.Text.Quoted

import Stackwright.Text.Unprintable

/-! # Quoted text

How text is shown in diagnostics: between double quotes, with `\"`, `\\`, `\n`, `\r`, `\t`, `\0` for
the characters that have a short escape, and the code point in braces for the other unprintable ones.
A single quote stands for itself. -/

namespace Stackwright

namespace Quoted

/-- The escape of an unprintable character by its code point. -/
def codePoint (c : Char) : List Char :=
  ['\\', 'u', '\x7b'] ++ Nat.toDigits 16 c.toNat ++ ['\x7d']

/-- The characters that stand for one character between quotes. -/
def encodeChar : Char → List Char
  | '\x22' => ['\\', '\x22']
  | '\\' => ['\\', '\\']
  | '\n' => ['\\', 'n']
  | '\r' => ['\\', 'r']
  | '\t' => ['\\', 't']
  | '\x00' => ['\\', '0']
  | c => if Unprintable.contains c then codePoint c else [c]

/-- The quoted form of a text. -/
def encode (s : String) : String :=
  String.ofList (['\x22'] ++ s.toList.flatMap encodeChar ++ ['\x22'])

end Quoted

end Stackwright

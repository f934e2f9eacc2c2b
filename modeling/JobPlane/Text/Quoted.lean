import JobPlane.Text.Hidden

/-!
# Quoted text

How a text is shown inside a message: between double quotes, with a backslash before quotes and backslashes, short escapes for
the common controls, and the code point in braces for every other character that has no glyph of its own.
-/

namespace JobPlane.Text

/-- A number in hexadecimal, small letters, no leading zeros. -/
def hex (n : Nat) : List Char := Nat.toDigits 16 n

/-- How one character stands in a quoted text. -/
def quoteChar (c : Char) : List Char :=
  match c with
  | '"' => ['\\', '"']
  | '\\' => ['\\', '\\']
  | '\n' => ['\\', 'n']
  | '\r' => ['\\', 'r']
  | '\t' => ['\\', 't']
  | '\x00' => ['\\', '0']
  | c => if isHidden c then ['\\', 'u', '\x7b'] ++ hex c.toNat ++ ['\x7d'] else [c]

/-- A text between quotes. -/
def quoted (s : String) : String := String.ofList ('"' :: s.toList.flatMap quoteChar ++ ['"'])

end JobPlane.Text

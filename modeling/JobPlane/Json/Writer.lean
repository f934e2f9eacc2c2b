/-!
# Writing JSON

Compact JSON, without blanks between its parts. In a string the quote, the backslash and the controls below U+0020 are escaped,
those with a short escape by it and the others by four hexadecimal digits; every other character stands as it is.
-/

namespace JobPlane.Json

/-- A hexadecimal digit. -/
def hexDigit (n : Nat) : Char := Char.ofNat (if n < 10 then 48 + n else 87 + n)

/-- How one character stands in a string. -/
def escapeChar (c : Char) : List Char :=
  if c = '"' then ['\\', '"']
  else if c = '\\' then ['\\', '\\']
  else if 0x20 ≤ c.toNat then [c]
  else match c.toNat with
    | 8 => ['\\', 'b']
    | 9 => ['\\', 't']
    | 10 => ['\\', 'n']
    | 12 => ['\\', 'f']
    | 13 => ['\\', 'r']
    | n => ['\\', 'u', '0', '0', hexDigit (n / 16), hexDigit (n % 16)]

/-- A text as a JSON string. -/
def writeChars (cs : List Char) : List Char := '"' :: cs.flatMap escapeChar ++ ['"']

/-- A text as a JSON string. -/
def writeString (s : String) : String := String.ofList (writeChars s.toList)

/-- Items joined by commas. -/
def commaJoin (items : List String) : String := String.intercalate "," items

/-- Written items as a JSON array. -/
def writeArray (items : List String) : String := "[" ++ commaJoin items ++ "]"

/-- Written members as a JSON object, in the order given. -/
def writeObject (members : List (String × String)) : String :=
  "\x7b" ++ commaJoin (members.map fun (k, v) => writeString k ++ ":" ++ v) ++ "\x7d"

/-- A truth value. -/
def writeBool (b : Bool) : String := if b then "true" else "false"

/-- A text that may be missing. -/
def writeOption (s : Option String) : String :=
  match s with
  | some s => writeString s
  | none => "null"

end JobPlane.Json

import JobPlane.Program.Raw

/-!
# Names in messages

How programs show a name or an argument in a message. A name is shown as a shell would have to be given it: as it is where that is
safe, else between quotes. An argument is always between quotes, with a backslash before what cannot be shown.
-/

namespace JobPlane.Program.Quote

/-- The letter of the escape for a control character that has one. -/
def letter? : Char → Option Char
  | '\x07' => some 'a'
  | '\x08' => some 'b'
  | '\x0b' => some 'v'
  | '\x0c' => some 'f'
  | '\n' => some 'n'
  | '\r' => some 'r'
  | '\t' => some 't'
  | _ => none

/-- Whether a character shows by itself. -/
def isPrintable (c : Char) : Bool := ' ' ≤ c && c ≤ '~'

/-- The escape for a character that does not show: its letter, or three octal digits. -/
def escape (c : Char) : Raw :=
  match letter? c with
  | some l => ['\\', l]
  | none =>
    let n := c.toNat
    ['\\', Char.ofNat (48 + n / 64 % 8), Char.ofNat (48 + n / 8 % 8), Char.ofNat (48 + n % 8)]

/-- Whether no shell takes a character for anything but itself. -/
def isSafe (c : Char) : Bool := c.isAlphanum || "%+,-./:]_".toList.contains c

/-- Whether a whole name can stand without quotes: signs for comments and homes matter only at the beginning, and braces only by
themselves. -/
def isBare (name : Raw) : Bool :=
  match name with
  | [] => false
  | [c] => isSafe c
  | c :: cs => (isSafe c || c = '\x7b' || c = '\x7d') && cs.all fun c => isSafe c || "#~\x7b\x7d".toList.contains c

/-- Whether a name with an apostrophe can stand between double quotes. -/
def suitsDouble (name : Raw) : Bool :=
  let fits (c : Char) : Bool := isSafe c || c = ' ' || c = '\''
  match name with
  | [] => false
  | c :: cs => name.contains '\'' && (fits c || c = '#' || c = '~') && cs.all fits

/-- What stands between single quotes. Characters that do not show are in quotes of their own, which `inside` says are open. -/
def single : Bool → Raw → Raw
  | _, [] => ['\'']
  | inside, c :: cs =>
    if c = '\'' then '\'' :: '\\' :: '\'' :: '\'' :: single false cs
    else if isPrintable c then (if inside then ['\'', '\''] else []) ++ c :: single false cs
    else (if inside then [] else ['\'', '$', '\'']) ++ escape c ++ single true cs

/-- A text as a shell has to be given it. -/
def shown (name : Raw) : Raw :=
  if isBare name then name
  else if suitsDouble name then '"' :: name ++ ['"']
  else '\'' :: single false name

/-- The name of a file in a message that goes on with a colon. -/
def file (name : Raw) : Raw :=
  if isBare name && name.contains ':' then '\'' :: single false name else shown name

/-- An argument in a message. -/
def argument (arg : Raw) : Raw :=
  '\'' :: (arg.flatMap fun c =>
    if c = '\'' || c = '\\' then ['\\', c] else if isPrintable c then [c] else escape c) ++ ['\'']

end JobPlane.Program.Quote

import JobPlane.Program.Raw

/-!
# Escapes in printed text

What a backslash and the characters after it stand for. The programs and the shell agree on letters and octal digits, and differ
in what else they know and in what they do with the rest.
-/

namespace JobPlane.Program

/-- Who prints: a program of its own, or the shell. -/
inductive Printer
  | program
  | shell
  deriving Repr, DecidableEq

namespace Escape

/-- What the text after a backslash stands for. -/
inductive Meaning
  /-- A text, which takes the place of the backslash and what belongs to it. -/
  | text (r : Raw) (rest : Raw)
  /-- Nothing is printed from here on. -/
  | stop
  /-- Hexadecimal digits are missing. -/
  | noDigits
  deriving Repr

/-- The character for the letter of an escape. -/
def letter? : Char → Option Char
  | 'a' => some '\x07'
  | 'b' => some '\x08'
  | 'e' => some '\x1b'
  | 'f' => some '\x0c'
  | 'n' => some '\n'
  | 'r' => some '\r'
  | 't' => some '\t'
  | 'v' => some '\x0b'
  | '\\' => some '\\'
  | _ => none

/-- A byte given by at most so many octal digits. -/
def octal (most : Nat) (cs : Raw) : Meaning :=
  let (ds, rest) := Raw.leading 8 most cs
  .text [Raw.octet (Raw.value 8 ds)] rest

/-- The escapes that everyone knows, up to octal digits; a backslash stands for itself before all else. Then the program passes the
character behind it, while the shell looks at it again. -/
def common (p : Printer) (cs : Raw) : Meaning :=
  match cs with
  | [] => .text ['\\'] []
  | c :: rest =>
    match letter? c with
    | some e => .text [e] rest
    | none =>
      if Raw.isDigit 8 c then octal 3 cs
      else if p = .program then .text ['\\', c] rest
      else .text ['\\'] cs

/-- A character given by so many hexadecimal digits. One that is not ASCII is written as an escape again. -/
def character (count : Nat) (cs : Raw) : Meaning :=
  let (ds, rest) := Raw.leading 16 count cs
  let n := Raw.value 16 ds
  let padded (letter : Char) (width : Nat) : Raw :=
    let ds := (Nat.toDigits 16 n).map Char.toUpper
    '\\' :: letter :: List.replicate (width - ds.length) '0' ++ ds
  if ds.length < count then .noDigits
  else .text (if n < 128 then [Raw.octet n] else if n < 65536 then padded 'u' 4 else padded 'U' 8) rest

/-- The escapes in the format of `printf`. -/
def inFormat (p : Printer) (cs : Raw) : Meaning :=
  match p, cs with
  | .program, 'c' :: _ => .stop
  | .program, '"' :: rest => .text ['"'] rest
  | .program, 'x' :: cs =>
    match Raw.leading 16 2 cs with
    | ([], _) => .noDigits
    | (ds, rest) => .text [Raw.octet (Raw.value 16 ds)] rest
  | .program, 'u' :: cs => character 4 cs
  | .program, 'U' :: cs => character 8 cs
  | _, _ => common p cs

/-- The escapes in an argument of `printf`, where a zero may come before octal digits. -/
def inArgument (p : Printer) (cs : Raw) : Meaning :=
  match p, cs with
  | .shell, 'c' :: _ => .stop
  | _, '0' :: d :: rest => if Raw.isDigit 8 d then octal 3 (d :: rest) else octal 3 cs
  | _, _ => inFormat p cs

/-- The escapes of the program `echo`: a zero leads octal digits, and hexadecimal ones may be missing. -/
def inEcho (p : Printer) (cs : Raw) : Meaning :=
  match p, cs with
  | .shell, _ => inArgument .shell cs
  | .program, 'c' :: _ => .stop
  | .program, '0' :: d :: rest => if Raw.isDigit 8 d then octal 3 (d :: rest) else octal 3 cs
  | .program, 'x' :: cs =>
    match Raw.leading 16 2 cs with
    | ([], _) => .text ['\\', 'x'] cs
    | (ds, rest) => .text [Raw.octet (Raw.value 16 ds)] rest
  | .program, _ => common .program cs

/-- How the printing of a text ended. -/
inductive Ending
  | complete
  | stopped
  | noDigits
  deriving Repr, DecidableEq

/-- Replaces all escapes of a text, with a bound on its length. What is printed so far is held backwards. -/
def replaceFrom (meaning : Raw → Meaning) : Nat → Raw → Raw → Raw × Ending
  | 0, out, _ => (out.reverse, .complete)
  | _, out, [] => (out.reverse, .complete)
  | n + 1, out, '\\' :: cs =>
    match meaning cs with
    | .text r rest => replaceFrom meaning n (r.reverse ++ out) rest
    | .stop => (out.reverse, .stopped)
    | .noDigits => (out.reverse, .noDigits)
  | n + 1, out, c :: cs => replaceFrom meaning n (c :: out) cs

/-- Replaces all escapes of a text. -/
def replace (meaning : Raw → Meaning) (cs : Raw) : Raw × Ending := replaceFrom meaning cs.length [] cs

end Escape

end JobPlane.Program

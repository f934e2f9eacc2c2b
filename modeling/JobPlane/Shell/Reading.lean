import JobPlane.Shell.Token

/-!
# Reading

Reading moves a cursor through the text of a script and counts its lines. Where commands hold words and words hold commands, what
is inside is asked of a reader for all goals, so that words and commands can be told apart in modules of their own.
-/

namespace JobPlane.Shell

/-- Where reading has come to. -/
structure Cursor where
  rest : Raw
  line : Nat := 1
  /-- Lines already taken from behind the end of this one. -/
  ahead : Nat := 0
  /-- A token that was read too early. -/
  pending : Option Token := none

/-- Why a script cannot be read, and on which line that shows. -/
structure SyntaxFault where
  line : Nat
  message : Raw
  deriving Repr

/-- Reading something, which moves on or fails. -/
abbrev Reading (α : Type) := StateT Cursor (Except SyntaxFault) α

namespace Reading

/-- Fails. -/
def refuse {α : Type} (message : String) : Reading α := do
  throw { line := (← get).line, message := message.toList }

/-- Fails because of a token, and tells which one was expected instead. -/
def unexpected {α : Type} (t : Token) (expected : Option Token) : Reading α :=
  refuse (t.called ++ " unexpected" ++ match expected with
    | some e => " (expecting " ++ e.called ++ ")"
    | none => "")

/-- The characters to come. -/
def ahead : Reading Raw := do return (← get).rest

/-- Moves on by a character. -/
def skip : Reading Unit := modify fun c =>
  match c.rest with
  | '\n' :: rest => { c with rest, line := c.line + 1 + c.ahead, ahead := 0 }
  | _ :: rest => { c with rest }
  | [] => c

/-- Moves on by several characters. -/
def skipMany : Nat → Reading Unit
  | 0 => pure ()
  | n + 1 => do
    skip
    skipMany n

/-- Moves past line ends behind a backslash, with a bound. -/
def joinLines : Nat → Reading Unit
  | 0 => pure ()
  | n + 1 => do
    match ← ahead with
    | '\\' :: '\n' :: _ => do
      skipMany 2
      joinLines n
    | _ => pure ()

/-- Moves past line ends behind a backslash. -/
def join : Reading Unit := do joinLines (← ahead).length

/-- The next character, past joined lines, which is left. -/
def peek : Reading (Option Char) := do
  join
  return (← ahead).head?

/-- Takes characters while they are of a kind, with a bound. -/
def takeSome (kind : Char → Bool) : Nat → Raw → Reading Raw
  | 0, taken => pure taken.reverse
  | n + 1, taken => do
    match ← peek with
    | some c => if kind c then do skip; takeSome kind n (c :: taken) else pure taken.reverse
    | none => pure taken.reverse

/-- Takes characters while they are of a kind. -/
def takeWhile (kind : Char → Bool) : Reading Raw := do takeSome kind (← ahead).length []

end Reading

/-- What a text that is read into parts stands in. -/
inductive Mode
  | word
  /-- Between quotation marks, up to the second one. -/
  | double
  /-- Behind a parameter, up to a closing brace. -/
  | braces (quoted : Bool)
  /-- In a text that a redirection leads to. -/
  | document
  /-- In a text that ends such a text, where nothing is replaced. -/
  | mark
  /-- In an expression, up to two closing parentheses. -/
  | sum
  deriving Repr, DecidableEq

/-- How a list of commands ends. -/
inductive Extent
  /-- With the line. -/
  | line
  /-- With a token that ends a list, after at least one command. -/
  | filled
  /-- With a token that ends a list. -/
  | any
  deriving Repr, DecidableEq

/-- What can be asked of the reader. -/
inductive Goal
  | commands (extent : Extent)
  | command
  | parts (mode : Mode)

/-- What comes of it. -/
def Goal.Product : Goal → Type
  | commands _ => List Command
  | command => Command
  | parts _ => Word

/-- A reader for all goals. -/
abbrev Reads := (g : Goal) → Reading g.Product

end JobPlane.Shell

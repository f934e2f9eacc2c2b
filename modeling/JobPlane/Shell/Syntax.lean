import JobPlane.Program.Raw

/-!
# Scripts

What a script of the shell consists of. A word is a list of parts, which are put together when the word is used; a command is a
simple one, words with assignments and redirections, or is made up of other commands.
-/

namespace JobPlane.Shell

/-- How a file is opened. -/
inductive Opening
  | read
  | write
  | append
  /-- To be read and written. -/
  | both
  deriving Repr, DecidableEq

mutual

/-- A part of a word. -/
inductive Part
  /-- Text without quotes. -/
  | plain (r : Raw)
  /-- Text that stands for itself. -/
  | exact (r : Raw)
  /-- What stands between quotation marks. -/
  | double (parts : List Part)
  /-- A parameter. -/
  | parameter (name : Raw) (use : Use)
  /-- What commands print. -/
  | output (body : List Command)
  /-- What an expression comes to. -/
  | sum (parts : List Part)

/-- What of a parameter is wanted. `orEmpty` says that an empty one counts as one that is not set. -/
inductive Use
  | value
  | length
  /-- The value, or a word if it is not set. -/
  | default (orEmpty : Bool) (word : List Part)
  /-- The value, which is set to a word if it is not set. -/
  | assign (orEmpty : Bool) (word : List Part)
  /-- The value, which must be set. -/
  | require (orEmpty : Bool) (word : List Part)
  /-- A word if it is set. -/
  | alternative (orEmpty : Bool) (word : List Part)
  /-- The value without what a pattern matches at one end. -/
  | trim (atEnd longest : Bool) (pattern : List Part)
  /-- Something that cannot be. -/
  | faulty

/-- A redirection of a descriptor. -/
inductive Redirect
  | file (n : Nat) (opening : Opening) (name : List Part)
  /-- To what another descriptor leads to, or to nothing. -/
  | copy (n : Nat) (from_ : List Part)
  /-- To a text. -/
  | text (n : Nat) (body : List Part)

/-- A command. -/
inductive Command
  | simple (line : Nat) (assignments : List (Raw × List Part)) (words : List (List Part)) (redirects : List Redirect)
  | negate (c : Command)
  | pipe (stages : List Command)
  | both (a b : Command)
  | either (a b : Command)
  | background (c : Command)
  | sequence (cs : List Command)
  | redirected (line : Nat) (c : Command) (redirects : List Redirect)
  | subshell (body : List Command)
  | cond (test body other : List Command)
  /-- Goes on while its test succeeds, or, if `until_` is set, fails. -/
  | loop (until_ : Bool) (test body : List Command)
  /-- Runs for each of several words, or for each parameter. -/
  | each (line : Nat) (name : Raw) (words : Option (List (List Part))) (body : List Command)
  | choose (line : Nat) (subject : List Part) (cases : List Case)
  | define (name : Raw) (body : Command)

/-- A case of a choice. -/
inductive Case
  | mk (patterns : List (List Part)) (body : List Command)

end

instance : Inhabited Command := ⟨.sequence []⟩

/-- A word. -/
abbrev Word := List Part

/-- Whether a character can begin a name. -/
def isNameStart (c : Char) : Bool := c.isAlpha || c = '_'

/-- Whether a character can go on with a name. -/
def isNameChar (c : Char) : Bool := c.isAlphanum || c = '_'

/-- Whether a text is a name. -/
def isName (r : Raw) : Bool :=
  match r with
  | c :: cs => isNameStart c && cs.all isNameChar
  | [] => false

/-- The parameters that are no names and no numbers. -/
def isSpecial (c : Char) : Bool := "@*#?$!-".toList.contains c

end JobPlane.Shell

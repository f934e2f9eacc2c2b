import JobPlane.Program.Quote
import JobPlane.Program.World

/-!
# Copying

What `cat` does: it copies its input and files to its output, and can number lines and make visible what otherwise does not show.
What it cannot read it complains of, and goes on.
-/

namespace JobPlane.Program.Copy

/-- Which lines are numbered. -/
inductive Numbering
  | no
  | every
  | filled
  deriving Repr, DecidableEq

/-- What the options of the command ask for. -/
structure Options where
  numbering : Numbering := .no
  squeeze : Bool := false
  ends : Bool := false
  tabs : Bool := false
  controls : Bool := false
  deriving Repr

namespace Options

/-- With the option of a letter, if there is one. -/
def add (o : Options) : Char → Option Options
  | 'b' => some { o with numbering := .filled }
  | 'e' => some { o with ends := true, controls := true }
  | 'n' => some { o with numbering := if o.numbering = .filled then .filled else .every }
  | 's' => some { o with squeeze := true }
  | 't' => some { o with tabs := true, controls := true }
  | 'u' => some o
  | 'v' => some { o with controls := true }
  | 'A' => some { o with ends := true, tabs := true, controls := true }
  | 'E' => some { o with ends := true }
  | 'T' => some { o with tabs := true }
  | _ => none

/-- The options that have long names, and their letters. -/
def long : List (Raw × Char) :=
  [("number-nonblank", 'b'), ("number", 'n'), ("squeeze-blank", 's'), ("show-nonprinting", 'v'), ("show-ends", 'E'),
   ("show-tabs", 'T'), ("show-all", 'A')].map fun (name, letter) => (name.toList, letter)

/-- With the options of several letters; an unknown letter is complained of. -/
def addAll (o : Options) : Raw → Except Raw Options
  | [] => .ok o
  | c :: cs => match o.add c with
    | some o => o.addAll cs
    | none => .error ("invalid option -- '".toList ++ [c, '\''])

/-- With the option of a long name, of which the beginning is enough. -/
def addLong (o : Options) (text : Raw) : Except Raw Options :=
  let name := text.takeWhile (· ≠ '=')
  let meant : List (Raw × Char) := match long.filter fun p => p.1 == name with
    | [] => long.filter fun p => name.isPrefixOf p.1
    | exact => exact
  match meant with
  | [(full, letter)] =>
    if name.length < text.length then .error ("option '--".toList ++ full ++ "' doesn't allow an argument".toList)
    else .ok ((o.add letter).getD o)
  | [] => .error ("unrecognized option '--".toList ++ text ++ ['\''])
  | several =>
    .error ("option '--".toList ++ name ++ "' is ambiguous; possibilities:".toList ++
      several.flatMap fun p : Raw × Char => " '--".toList ++ p.1 ++ ['\''])

/-- The options and the operands among the arguments, in any order up to a double dash. -/
def read (o : Options) : List Raw → Except Raw (Options × List Raw)
  | [] => .ok (o, [])
  | ['-', '-'] :: rest => .ok (o, rest)
  | ('-' :: '-' :: name) :: rest => match o.addLong name with
    | .ok o => o.read rest
    | .error e => .error e
  | ('-' :: c :: cs) :: rest => match o.addAll (c :: cs) with
    | .ok o => o.read rest
    | .error e => .error e
  | operand :: rest => (o.read rest).map fun (o, operands) => (o, operand :: operands)

/-- Whether bytes are copied as they are. -/
def isPlain (o : Options) : Bool :=
  o.numbering = .no && !o.squeeze && !o.ends && !o.tabs && !o.controls

/-- How a character that ends no line shows. -/
def visible (o : Options) (c : Char) : Raw :=
  let low (c : Char) : Raw :=
    if c = '\x7f' then ['^', '?'] else if c < ' ' then ['^', Raw.octet (c.toNat + 64)] else [c]
  if c = '\t' then (if o.tabs then ['^', 'I'] else [c])
  else if !o.controls then [c]
  else if c.toNat < 128 then low c
  else 'M' :: '-' :: low (Raw.octet (c.toNat - 128))

end Options

/-- How far the copying of lines has come. -/
structure Progress where
  /-- What was copied, backwards. -/
  out : Raw := []
  lines : Nat := 0
  atStart : Bool := true
  /-- The line before was empty. -/
  afterEmpty : Bool := false

/-- The number of a line. -/
def label (n : Nat) : Raw :=
  let ds := Raw.ofNat n
  List.replicate (6 - ds.length) ' ' ++ ds ++ ['\t']

/-- Copies a character. -/
def Progress.copy (o : Options) (p : Progress) (c : Char) : Progress :=
  let empty := p.atStart && c = '\n'
  if empty && o.squeeze && p.afterEmpty then p
  else
    let counts := p.atStart && (o.numbering = .every || (o.numbering = .filled && !empty))
    let lines := if counts then p.lines + 1 else p.lines
    let mark := if counts then label lines else []
    let text := if c = '\n' then (if o.ends then ['$', '\n'] else ['\n']) else o.visible c
    { out := (mark ++ text).reverse ++ p.out, lines, atStart := c = '\n', afterEmpty := empty }

/-- Copies the characters of a text. Where the ends of lines show, a carriage return before one shows too. -/
def Progress.copyText (o : Options) (p : Progress) : Raw → Progress
  | [] => p
  | '\r' :: '\n' :: r =>
    let p := if o.ends && !o.controls then (p.copy o '^').copy o 'M' else p.copy o '\r'
    copyText o (p.copy o '\n') r
  | c :: r => copyText o (p.copy o c) r

/-- Copies a text. -/
def Progress.copyAll (o : Options) (p : Progress) (r : Raw) : Raw × Progress :=
  if o.isPlain then (r, p)
  else
    let p := { p with out := [] }.copyText o r
    (p.out.reverse, p)

/-- A copying program: its name, where it is and its descriptors. -/
structure Copier where
  name : Raw
  here : Place
  ds : Descriptors
  options : Options

namespace Copier

/-- Complains. -/
def complain (k : Copier) (w : World) (r : Raw) : World := w.say k.ds 2 (k.name ++ ": ".toList ++ r ++ ['\n'])

/-- Copies the operands one after another. -/
def copy (k : Copier) : List Raw → Progress → Nat → World → Ending × World
  | [], _, status, w => (.exited status, w)
  | operand :: rest, p, status, w =>
    let ownInput := operand = ['-']
    let opened : Except Raw (Descriptors × World) :=
      if ownInput then .ok (k.ds.filter fun d => d.1 = 0, w)
      else match w.openToRead k.ds k.here operand with
        | .ok (i, w) => .ok ([(0, i)], w)
        | .error e => .error e.text.toList
    let text := opened.bind fun (ds, w) => (w.peek ds 0).map fun (r, more) => (r, more, w.leave ds 0 [])
    match text with
    | .error e => k.copy rest p 1 (k.complain w (Quote.file operand ++ ": ".toList ++ e))
    | .ok (r, more, w) =>
      let (out, p) := p.copyAll k.options r
      match w.write k.ds 1 out with
      | .error e => (.exited 1, k.complain w ("write error: ".toList ++ e))
      | .ok w => if more then (.waiting, w) else k.copy rest p status w

end Copier

/-- Runs the command. -/
def run (name : Raw) (args : List Raw) (here : Place) (ds : Descriptors) (w : World) : Ending × World :=
  let complain (r : Raw) : World := w.say ds 2 (name ++ ": ".toList ++ r)
  match ({ } : Options).read args with
  | .error e =>
    (.exited 1, complain (e ++ "\nTry '".toList ++ name ++ " --help' for more information.\n".toList))
  | .ok (options, operands) =>
    if (w.stream? ds 1).isNone then (.exited 1, complain ("standard output: ".toList ++ World.badDescriptor ++ ['\n']))
    else
      let operands := if operands.isEmpty then [['-']] else operands
      match ({ name, here, ds, options } : Copier).copy operands { } 0 w with
      | (.exited status, w) =>
        if operands.contains ['-'] && (w.stream? ds 0).isNone then
          (.exited 1, w.say ds 2 (name ++ ": closing standard input: ".toList ++ World.badDescriptor ++ ['\n']))
        else (.exited status, w)
      | ended => ended

end JobPlane.Program.Copy

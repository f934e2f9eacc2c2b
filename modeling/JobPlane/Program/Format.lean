import JobPlane.Program.Escape
import JobPlane.Program.Number
import JobPlane.Program.Quote

/-!
# Printing by a format

What `printf` prints. The format is gone through as often as it takes to use up the arguments, and arguments that are missing count
as empty. The program of that name and the shell differ in their messages, in a few escapes and in how exactly they reckon.
-/

namespace JobPlane.Program

/-- How an argument is to be printed. -/
structure Directive where
  /-- Filled up on the right. -/
  left : Bool := false
  plus : Bool := false
  space : Bool := false
  /-- In the alternative form. -/
  marked : Bool := false
  zeros : Bool := false
  width : Nat := 0
  precision : Option Nat := none
  deriving Repr

namespace Directive

/-- Fills up to the width; zeros come behind a sign or another lead. -/
def fill (d : Directive) (zeros : Bool) (lead text : Raw) : Raw :=
  let missing := d.width - (lead.length + text.length)
  if d.left then lead ++ text ++ List.replicate missing ' '
  else if zeros then lead ++ List.replicate missing '0' ++ text
  else List.replicate missing ' ' ++ lead ++ text

/-- A text, cut to the precision. -/
def text (d : Directive) (r : Raw) : Raw := d.fill false [] (r.take (d.precision.getD r.length))

/-- The sign of a number. -/
def sign (d : Directive) (negative : Bool) : Raw :=
  if negative then ['-'] else if d.plus then ['+'] else if d.space then [' '] else []

/-- At least as many digits as the precision asks for; none at all for zero if it asks for none. -/
def atLeast (d : Directive) (n : Nat) (ds : Raw) : Raw :=
  match d.precision with
  | none => ds
  | some p => if n = 0 && p = 0 then [] else List.replicate (p - ds.length) '0' ++ ds

/-- A signed whole number. -/
def signed (d : Directive) (v : Int) : Raw :=
  d.fill (d.zeros && d.precision.isNone) (d.sign (decide (v < 0))) (d.atLeast v.natAbs (Raw.ofNat v.natAbs))

/-- An unsigned whole number by the letter of its conversion. -/
def unsigned (d : Directive) (letter : Char) (n : Nat) : Raw :=
  let zeros := d.zeros && d.precision.isNone
  match letter with
  | 'o' =>
    let ds := d.atLeast n (Nat.toDigits 8 n)
    d.fill zeros [] (if d.marked && ds.head? ≠ some '0' then '0' :: ds else ds)
  | 'u' => d.fill zeros [] (d.atLeast n (Raw.ofNat n))
  | _ =>
    let capital (r : Raw) : Raw := if letter = 'X' then r.map Char.toUpper else r
    d.fill zeros (if d.marked && n ≠ 0 then ['0', letter] else []) (capital (d.atLeast n (Nat.toDigits 16 n)))

/-- A number's digits with so many of them behind the point. -/
def point (d : Directive) (behind : Nat) (n : Nat) : Raw :=
  let ds := Raw.ofNat n
  let ds := List.replicate (behind + 1 - ds.length) '0' ++ ds
  let whole := ds.take (ds.length - behind)
  if behind = 0 && !d.marked then whole else whole ++ '.' :: ds.drop (ds.length - behind)

/-- A positive number with so many digits behind the point. -/
def fixed (d : Directive) (behind : Nat) (n m : Nat) : Raw :=
  d.point behind (Real.divided (n * Nat.pow 10 behind) m)

/-- A positive number as digits and an exponent of ten. -/
def mantissa (behind : Nat) (n m : Nat) : Nat × Int :=
  if n = 0 then (0, 0)
  else
    let e := Real.magnitude 10 n m
    let (a, b) := Real.power 10 (behind - e)
    let ds := Real.divided (n * a) (m * b)
    if Nat.pow 10 (behind + 1) ≤ ds then (ds / 10, e + 1) else (ds, e)

/-- An exponent as it is printed, in at least two digits. -/
def exponent (letter : Char) (e : Int) : Raw :=
  let ds := Raw.ofNat e.natAbs
  letter :: (if e < 0 then '-' else '+') :: (if ds.length < 2 then '0' :: ds else ds)

/-- Without the zeros that end a fraction. -/
def trimmed (r : Raw) : Raw :=
  if r.contains '.' then
    let r := r.reverse.dropWhile (· = '0')
    (if r.head? = some '.' then r.drop 1 else r).reverse
  else r

/-- A finite number in base sixteen, with a power of two. Programs have four bits before the point and the shell has one. -/
def hexadecimal (d : Directive) (p : Printer) (letter : Char) (n m : Nat) : Raw × Raw :=
  let (lead, most) := if p = .shell then (0, 13) else (3, 15)
  let x : Int := if n = 0 then 0 else Real.magnitude 2 n m - lead
  let behind := d.precision.getD most
  let (a, b) := Real.power 2 (4 * behind - x)
  let ds := Nat.toDigits 16 (Real.divided (n * a) (m * b))
  let (ds, x) := if behind + 1 < ds.length then (ds.dropLast, x + 4) else (ds, x)
  let ds := List.replicate (behind + 1 - ds.length) '0' ++ ds
  let part := ds.drop (ds.length - behind)
  let part := if d.precision.isNone then (part.reverse.dropWhile (· = '0')).reverse else part
  let whole := ds.take (ds.length - behind)
  let point := if part.isEmpty && !d.marked then [] else ['.']
  let text := whole ++ point ++ part ++ 'p' :: (if x < 0 then '-' else '+') :: Raw.ofNat x.natAbs
  if letter = 'A' then ("0X".toList, text.map Char.toUpper) else ("0x".toList, text)

/-- The digits of a finite number by the letter of its conversion. -/
def digits (d : Directive) (letter : Char) (n m : Nat) : Raw :=
  let p := d.precision.getD 6
  let e : Char := if letter.isUpper then 'E' else 'e'
  match letter.toLower with
  | 'f' => d.fixed p n m
  | 'e' => let (ds, x) := mantissa p n m; d.point p ds ++ exponent e x
  | _ =>
    let p := max p 1
    let (ds, x) := mantissa (p - 1) n m
    let trim (r : Raw) : Raw := if d.marked then r else trimmed r
    if -4 ≤ x && x < p then trim (d.fixed (p - 1 - x).toNat n m)
    else trim (d.point (p - 1) ds) ++ exponent e x

/-- A number that may have a fraction. -/
def real (d : Directive) (p : Printer) (letter : Char) (v : Real) : Raw :=
  let cased (s : String) : Raw := s.toList.map fun c => if letter.isUpper then c.toUpper else c
  match v with
  | .finite negative n m =>
    if letter.toLower = 'a' then
      let (lead, text) := d.hexadecimal p letter n m
      d.fill d.zeros (d.sign negative ++ lead) text
    else d.fill d.zeros (d.sign negative) (d.digits letter n m)
  | .infinite negative => d.fill false (d.sign negative) (cased "inf")
  | .undefined negative => d.fill false (d.sign negative) (cased "nan")

end Directive

/-- What has been printed so far. -/
structure Printout where
  /-- The pieces of output, last first. -/
  out : List Raw := []
  /-- The complaints, last first. -/
  complaints : List Raw := []
  args : List Raw
  failed : Bool := false
  deriving Repr

namespace Printout

/-- Prints a piece. -/
def print (o : Printout) (r : Raw) : Printout := { o with out := r :: o.out }

/-- Takes the next argument, which is empty if there is none. -/
def take (o : Printout) : Raw × Printout := (o.args.headD [], { o with args := o.args.tail })

/-- Complains and goes on. -/
def complain (o : Printout) (r : Raw) (failed : Bool) : Printout :=
  { o with complaints := r :: o.complaints, failed := o.failed || failed }

/-- Complains if an argument is not a number, or not only a number. -/
def check {α : Type} (o : Printout) (p : Printer) (arg : Raw) (n : Numeral α) : Printout :=
  let outside := "Numerical result out of range".toList
  match p with
  | .program =>
    let shown := Quote.argument arg
    if !n.inRange then o.complain (shown ++ ": ".toList ++ outside) true
    else if n.rest.isEmpty then o
    else if n.found then o.complain (shown ++ ": value not completely converted".toList) true
    else o.complain (shown ++ ": expected a numeric value".toList) true
  | .shell =>
    if !n.rest.isEmpty then
      o.complain (arg ++ (if n.found then ": not completely converted" else ": expected numeric value").toList) true
    else if !n.inRange then o.complain (arg ++ ": ".toList ++ outside) true
    else o

/-- Takes an argument as a number, by its value or, behind a quotation mark, as the code of a character. -/
def number {α : Type} (o : Printout) (p : Printer) (read : Raw → Numeral α) (code : Nat → α) : α × Printout :=
  let (arg, o) := o.take
  let byValue := let n := read arg; (n.value, o.check p arg n)
  match p, arg with
  | _, [] => byValue
  | .program, q :: c :: more =>
    if q = '"' || q = '\'' then
      (code c.toNat, if more.isEmpty then o else
        o.complain ("warning: ".toList ++ more ++ ": character(s) following character constant have been ignored".toList) false)
    else byValue
  | .shell, q :: more => if q = '"' || q = '\'' then (code ((more.head?.map Char.toNat).getD 0), o) else byValue
  | .program, _ => byValue

end Printout

/-- How going once through a format ended. -/
inductive Pass
  | complete
  /-- Nothing more is to be printed. -/
  | stopped
  /-- The format is faulty. -/
  | refused (message : Raw)
  deriving Repr

namespace Format

/-- The flags at the beginning of a directive, and what follows them. -/
def flags (p : Printer) : Directive → Raw → Directive × Raw
  | d, '-' :: cs => flags p { d with left := true } cs
  | d, '+' :: cs => flags p { d with plus := true } cs
  | d, ' ' :: cs => flags p { d with space := true } cs
  | d, '#' :: cs => flags p { d with marked := true } cs
  | d, '0' :: cs => flags p { d with zeros := true } cs
  | d, '\'' :: cs => if p = .program then flags p d cs else (d, '\'' :: cs)
  | d, 'I' :: cs => if p = .program then flags p d cs else (d, 'I' :: cs)
  | d, cs => (d, cs)

/-- The greatest width and precision that are heeded. -/
def farthest : Nat := 1000000

/-- The greatest number that an argument may give as a width or a precision. -/
def greatest : Int := 2147483647

/-- A width or a precision that an argument gives, of which the shell heeds the lowest bits only. -/
def heeded (p : Printer) (v : Int) : Int := if p = .shell then Int.bmod v 4294967296 else v

/-- The width of a directive, which an argument may give, or why there is none. -/
def width (p : Printer) (o : Printout) (d : Directive) (cs : Raw) : Printout × Directive × Except Raw Raw :=
  match cs with
  | '*' :: cs =>
    if o.args.isEmpty then (o, d, .ok cs)
    else
      let arg := o.take.1
      let (v, o) := o.number p Numeral.signed Int.ofNat
      let v := heeded p v
      if p = .program && (greatest < v || v < -greatest - 1) then
        (o, d, .error ("invalid field width: ".toList ++ Quote.argument arg))
      else (o, { d with width := min farthest v.natAbs, left := d.left || decide (v < 0) }, .ok cs)
  | _ =>
    let (ds, rest) := Raw.leading 10 cs.length cs
    (o, { d with width := min farthest (Raw.value 10 ds) }, .ok rest)

/-- The precision of a directive, if it has one, or why there is none. -/
def precision (p : Printer) (o : Printout) (d : Directive) (cs : Raw) : Printout × Directive × Except Raw Raw :=
  match cs with
  | '.' :: '*' :: cs =>
    if o.args.isEmpty then (o, { d with precision := some 0 }, .ok cs)
    else
      let arg := o.take.1
      let (v, o) := o.number p Numeral.signed Int.ofNat
      let v := heeded p v
      if p = .program && greatest < v then (o, d, .error ("invalid precision: ".toList ++ Quote.argument arg))
      else (o, { d with precision := if v < 0 then none else some (min farthest v.toNat) }, .ok cs)
  | '.' :: cs =>
    let (ds, rest) := Raw.leading 10 cs.length cs
    (o, { d with precision := some (min farthest (Raw.value 10 ds)) }, .ok rest)
  | _ => (o, d, .ok cs)

/-- Whether the program has a conversion for a letter, with the flags and the precision that `spec` shows. -/
def isKnown (letter : Char) (d : Directive) (spec : Raw) : Bool :=
  let grouped := (spec.takeWhile fun c => !c.isDigit || c = '0').any fun c => c = '\'' || c = 'I'
  "diouxXeEfFgGaAcs".toList.contains letter &&
    !(grouped && "aAceEosxX".toList.contains letter) && !(d.marked && "cdisu".toList.contains letter) &&
    !(d.zeros && "cs".toList.contains letter) && !(spec.contains '.' && letter = 'c')

/-- Prints an argument by the letter of a conversion. -/
def convert (p : Printer) (d : Directive) (letter : Char) (o : Printout) : Printout × Pass :=
  if letter = 's' then let (arg, o) := o.take; (o.print (d.text arg), .complete)
  else if letter = 'c' then
    let (arg, o) := o.take
    (o.print ({ d with precision := none }.text [arg.headD '\x00']), .complete)
  else if letter = 'b' then
    let (arg, o) := o.take
    let (r, ending) := Escape.replace (Escape.inArgument p) arg
    let o := o.print (if p = .shell then d.text r else r)
    match ending with
    | .complete => (o, .complete)
    | .stopped => (o, .stopped)
    | .noDigits => (o, .refused "missing hexadecimal number in escape".toList)
  else if letter = 'd' || letter = 'i' then
    let (v, o) := o.number p Numeral.signed Int.ofNat
    (o.print (d.signed v), .complete)
  else if "ouxX".toList.contains letter then
    let (v, o) := o.number p Numeral.unsigned Int.ofNat
    (o.print (d.unsigned letter v.toNat), .complete)
  else
    let precision := if p = .shell then Real.Precision.double else Real.Precision.extended
    let (v, o) := o.number p (Real.read precision) fun n => .finite false n 1
    (o.print (d.real p letter v), .complete)

/-- A directive behind its percent sign: the printout, how it ended and the rest of the format. -/
def directive (p : Printer) (o : Printout) (cs : Raw) : Printout × Pass × Raw :=
  match p, cs with
  | _, '%' :: rest => (o.print ['%'], .complete, rest)
  | .program, 'b' :: rest => let (o, e) := convert p { } 'b' o; (o, e, rest)
  | .program, 'q' :: rest =>
    if o.args.isEmpty then (o, .complete, rest)
    else let (arg, o) := o.take; (o.print (Quote.shown arg), .complete, rest)
  | _, _ =>
    let (d, after) := flags p { } cs
    match width p o d after with
    | (o, _, .error why) => (o, .refused why, [])
    | (o, d, .ok after) =>
      match precision p o d after with
      | (o, _, .error why) => (o, .refused why, [])
      | (o, d, .ok after) =>
        let after := if p = .program then after.dropWhile fun c => "lLhjtz".toList.contains c else after
        let spec := '%' :: cs.take (cs.length - after.length + 1)
        match p, after with
        | .program, letter :: rest =>
          if isKnown letter d spec then let (o, e) := convert p d letter o; (o, e, rest)
          else (o, .refused (spec ++ ": invalid conversion specification".toList), [])
        | .program, [] => (o, .refused (spec ++ ": invalid conversion specification".toList), [])
        | .shell, letter :: rest =>
          if "bcsdiouxXeEfFgGaA".toList.contains letter then let (o, e) := convert p d letter o; (o, e, rest)
          else (o, .refused (spec ++ ": invalid directive".toList), [])
        | .shell, [] => (o, .refused "missing format character".toList, [])

/-- Goes once through a format, with a bound on its length. -/
def pass (p : Printer) : Nat → Raw → Printout → Printout × Pass
  | 0, _, o => (o, .complete)
  | _, [], o => (o, .complete)
  | n + 1, '\\' :: cs, o =>
    match Escape.inFormat p cs with
    | .text r rest => pass p n rest (o.print r)
    | .stop => (o, .stopped)
    | .noDigits => (o, .refused "missing hexadecimal number in escape".toList)
  | n + 1, '%' :: cs, o =>
    match directive p o cs with
    | (o, .complete, rest) => pass p n rest o
    | (o, e, _) => (o, e)
  | n + 1, c :: cs, o => pass p n cs (o.print [c])

/-- Goes through a format until no argument is left, with a bound on how often. -/
def passes (p : Printer) (format : Raw) : Nat → Printout → Printout × Pass
  | 0, o => (o, .complete)
  | n + 1, o =>
    match pass p format.length format o with
    | (o', .complete) =>
      if o'.args.isEmpty then (o', .complete)
      else if o'.args.length < o.args.length then passes p format n o'
      else if p = .program then
        (o'.complain ("warning: ignoring excess arguments, starting with ".toList ++ Quote.argument (o'.args.headD [])) false,
          .complete)
      else (o', .complete)
    | ended => ended

end Format

/-- What a program prints, what it complains of and the exit code it ends with. -/
structure Printed where
  out : Raw
  complaints : List Raw := []
  status : Nat := 0
  deriving Repr

/-- What `printf` prints for a format and arguments. -/
def printf (p : Printer) (format : Raw) (args : List Raw) : Printed :=
  let (o, e) := Format.passes p format (args.length + 1) { args }
  let out := o.out.reverse.flatten
  let status := if o.failed then 1 else 0
  match e with
  | .complete => { out, complaints := o.complaints.reverse, status }
  | .stopped => { out, complaints := o.complaints.reverse, status := if p = .shell then status else 0 }
  | .refused m => { out, complaints := (m :: o.complaints).reverse, status := if p = .shell then 2 else 1 }

end JobPlane.Program

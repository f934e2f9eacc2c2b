import JobPlane.Program.Number
import JobPlane.Program.World

/-!
# Conditions

What `test` finds of its arguments: comparisons of texts and numbers, properties of texts and files, and conditions put together.
An argument that could be an operator is an operand where an operator would have nothing to stand between.
-/

namespace JobPlane.Shell.Condition

open Program

/-- What an argument can be. -/
inductive Sign
  /-- An operator before its operand. -/
  | unary
  /-- An operator between its operands. -/
  | binary
  | not
  | and
  | or
  | opening
  | closing
  deriving Repr, DecidableEq

/-- The operators. -/
def signs : List (Raw × Sign) :=
  (["-r", "-w", "-x", "-e", "-f", "-d", "-c", "-b", "-p", "-u", "-g", "-k", "-s", "-t", "-z", "-n", "-h", "-O", "-G", "-L",
    "-S"].map fun o => (o.toList, Sign.unary)) ++
  (["=", "!=", "<", ">", "-eq", "-ne", "-ge", "-gt", "-le", "-lt", "-nt", "-ot", "-ef"].map fun o => (o.toList, Sign.binary)) ++
  [("!".toList, .not), ("-a".toList, .and), ("-o".toList, .or), ("(".toList, .opening), (")".toList, .closing)]

/-- What can be seen of files and descriptors. -/
structure View where
  world : World
  ds : Descriptors
  here : Place

/-- What the first of the arguments is. -/
inductive Token
  | finish
  | operand
  | sign (s : Sign)
  deriving Repr, DecidableEq

/-- The operator that an argument would be. -/
def sign? (arg : Raw) : Option Sign := signs.lookup arg

/-- What the first of the arguments is, as far as the ones behind it show. -/
def first : List Raw → Token
  | [] => .finish
  | arg :: rest =>
    match sign? arg with
    | none => .operand
    | some .unary =>
      match rest with
      | [] => .operand
      | [_] => .sign .unary
      | next :: _ :: _ => if sign? next = some .binary then .operand else .sign .unary
    | some .opening => if rest.isEmpty then .operand else .sign .opening
    | some s => .sign s

/-- A number among the operands. -/
def number (arg : Raw) : Except Raw Int :=
  let n := Numeral.signed arg
  let negative := (Numeral.sign (arg.dropWhile Numeral.isSpace)).1
  let ds := ((Numeral.sign (arg.dropWhile Numeral.isSpace)).2.takeWhile Char.isDigit)
  let rest := (Numeral.sign (arg.dropWhile Numeral.isSpace)).2.drop ds.length
  let v : Int := if negative then -(Raw.value 10 ds : Int) else Raw.value 10 ds
  if n.found && !ds.isEmpty && rest.all Numeral.isSpace && Numeral.lowest ≤ v && v ≤ Numeral.highest then .ok v
  else .error ("Illegal number: ".toList ++ arg)

/-- Whether a file has a property. -/
def fileHas (v : View) (o : Char) (path : Raw) : Bool :=
  match Entry.ofPath v.world.made v.here path with
  | .error _ => false
  | .ok e =>
    match e, o with
    | .directory _, 'd' | .directory _, 'x' | .directory _, 's' => true
    | .program _, 'f' | .program _, 'x' | .program _, 's' => true
    | .file place, 's' => !(v.world.content place).isEmpty || Entry.files.contains place
    | .file _, 'f' => true
    | .device (.descriptor _), 'p' => true
    | .device (.descriptor _), 'c' => false
    | .device _, 'c' => true
    | _, 'e' | _, 'r' | _, 'w' | _, 'O' | _, 'G' => true
    | _, _ => false

/-- Whether an operator holds of the operand behind it. -/
def unary (v : View) (o operand : Raw) : Except Raw Bool :=
  match o with
  | ['-', 'z'] => .ok operand.isEmpty
  | ['-', 'n'] => .ok (!operand.isEmpty)
  | ['-', 't'] => (number operand).map fun _ => false
  | ['-', c] => .ok (fileHas v c operand)
  | _ => .ok false

/-- Whether an operator holds between two operands. -/
def binary (v : View) (a o b : Raw) : Except Raw Bool :=
  let compare (holds : Int → Int → Bool) : Except Raw Bool := do return holds (← number a) (← number b)
  let entry (path : Raw) := (Entry.ofPath v.world.made v.here path).toOption
  match String.ofList o with
  | "=" => .ok (a = b)
  | "!=" => .ok (a ≠ b)
  | "<" => .ok (decide (a < b))
  | ">" => .ok (decide (b < a))
  | "-eq" => compare fun x y => x = y
  | "-ne" => compare fun x y => x ≠ y
  | "-ge" => compare fun x y => y ≤ x
  | "-gt" => compare fun x y => y < x
  | "-le" => compare fun x y => x ≤ y
  | "-lt" => compare fun x y => x < y
  | "-ef" => .ok ((entry a).isSome && entry a = entry b)
  | "-nt" => .ok ((entry a).isSome && (entry b).isNone)
  | "-ot" => .ok ((entry b).isSome && (entry a).isNone)
  | _ => .ok false

/-- What a condition comes to, and the arguments from the last one that belongs to it. -/
abbrev Found := Except Raw (Bool × List Raw)

/-- A condition without connectives, given a reader for one in parentheses. -/
def primary (inside : List Raw → Found) (v : View) (args : List Raw) : Found :=
  match first args, args with
  | .finish, _ => .ok (false, args)
  | .sign .opening, _ :: rest =>
    if first rest = .sign .closing then .ok (false, rest)
    else do
      let (holds, at_) ← inside rest
      let rest := at_.drop 1
      if first rest = .sign .closing then return (holds, rest) else throw "closing paren expected".toList
  | .sign .unary, o :: rest =>
    match rest with
    | [] => .error (o ++ ": argument expected".toList)
    | operand :: _ => (unary v o operand).map fun holds => (holds, rest)
  | _, a :: rest =>
    match first rest, rest with
    | .sign .binary, o :: b :: more => (binary v a o b).map fun holds => (holds, b :: more)
    | .sign .binary, [o] => .error (o ++ ": argument expected".toList)
    | _, _ => .ok (!a.isEmpty, args)
  | _, [] => .ok (false, args)

/-- A condition that may be negated, with a bound. -/
def negation (inside : List Raw → Found) (v : View) : Nat → List Raw → Found
  | 0, args => primary inside v args
  | n + 1, args =>
    if first args = .sign .not then
      match args with
      | _ :: [] => (primary inside v []).map fun (holds, _) => (!holds, args)
      | _ :: rest => (negation inside v n rest).map fun (holds, at_) => (!holds, at_)
      | [] => .ok (false, [])
    else primary inside v args

/-- Conditions of which all must hold, with a bound. -/
def conjunction (inside : List Raw → Found) (v : View) : Nat → List Raw → Found
  | 0, args => negation inside v args.length args
  | n + 1, args => do
    let (holds, at_) ← negation inside v args.length args
    let behind := at_.drop 1
    if first behind = .sign .and then do
      let (more, at_) ← conjunction inside v n (behind.drop 1)
      return (holds && more, at_)
    else return (holds, at_)

/-- Conditions of which one must hold, with a bound. -/
def disjunction (inside : List Raw → Found) (v : View) : Nat → List Raw → Found
  | 0, args => conjunction inside v args.length args
  | n + 1, args => do
    let (holds, at_) ← conjunction inside v args.length args
    let behind := at_.drop 1
    if first behind = .sign .or then do
      let (more, at_) ← disjunction inside v n (behind.drop 1)
      return (holds || more, at_)
    else return (holds, at_)

/-- A whole condition, with a bound on how deep parentheses are inside one another. -/
def whole (v : View) : Nat → List Raw → Found
  | 0, _ => .error "closing paren expected".toList
  | n + 1, args => disjunction (whole v n) v args.length args

/-- What is found of arguments that stand by themselves, and not where an operator has two operands. -/
def general (v : View) (args : List Raw) : Except Raw Bool := do
  let (holds, at_) ← whole v (args.length + 1) args
  match at_ with
  | arg :: _ :: _ => throw ((if arg.isEmpty then [] else arg ++ ": ".toList) ++ "unexpected operator".toList)
  | _ => return holds

/-- What is found of the arguments of the command. Three or four of them are told by their number before anything else, with a bound
on how often. -/
def evaluateFrom (v : View) : Nat → List Raw → Except Raw Bool
  | 0, _ => .ok false
  | n + 1, args =>
    match args with
    | [] => .ok false
    | [a, o, b] =>
      if sign? o = some .binary then binary v a o b
      else if a = ['('] && b = [')'] then general v [o]
      else if a = ['!'] then (evaluateFrom v n [o, b]).map not
      else general v args
    | [a, b, c, d] =>
      if a = ['('] && d = [')'] then general v [b, c]
      else if a = ['!'] then (evaluateFrom v n [b, c, d]).map not
      else general v args
    | _ => general v args

/-- What the command finds: whether the condition holds, or what is wrong with it. A bracket has to be closed. -/
def evaluate (v : View) (name : Raw) (args : List Raw) : Except Raw Bool :=
  if name = ['['] then
    if args.getLast? = some [']'] then evaluateFrom v 5 args.dropLast else .error "missing ]".toList
  else evaluateFrom v 5 args

end JobPlane.Shell.Condition

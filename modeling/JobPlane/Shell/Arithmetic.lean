import JobPlane.Program.Number
import JobPlane.Shell.Syntax

/-!
# Arithmetic

The expressions that the shell reckons with: whole numbers of sixty-four bits, which wrap around, and variables, which can be set.
An expression is reckoned as it is read, so that of several mistakes the first one counts. The second operand of a logical sign and
the branch of a choice that is not taken are read, but not reckoned.
-/

namespace JobPlane.Shell.Arithmetic

open Program

/-- A sign between two operands. -/
inductive Operator
  | times
  | divided
  | rest
  | plus
  | minus
  | shiftLeft
  | shiftRight
  | less
  | atMost
  | greater
  | atLeast
  | equal
  | unequal
  | and
  | xor
  | or
  deriving Repr, DecidableEq

/-- A token of an expression. -/
inductive Token
  | number (n : Int)
  | name (r : Raw)
  | sign (r : Raw)
  | unknown
  deriving Repr, DecidableEq

/-- The signs, longer ones before their beginnings. -/
def signs : List Raw :=
  ["<<=", ">>=", "<<", ">>", "<=", ">=", "==", "!=", "&&", "||", "&=", "|=", "^=", "+=", "-=", "*=", "/=", "%=", "<", ">", "=",
   "!", "&", "|", "^", "~", "+", "-", "*", "/", "%", "?", ":", "(", ")"].map String.toList

/-- The tokens of a text, with a bound on its length. -/
def tokens : Nat → Raw → List Token
  | 0, _ => []
  | _, [] => []
  | n + 1, c :: cs =>
    if c = ' ' || c = '\t' || c = '\n' then tokens n cs
    else if c.isDigit then
      let m := Numeral.signed (c :: cs)
      .number m.value :: tokens n m.rest
    else if isNameStart c then
      let name := c :: cs.takeWhile isNameChar
      .name name :: tokens n (cs.drop (name.length - 1))
    else match signs.find? fun s => s.isPrefixOf (c :: cs) with
      | some s => .sign s :: tokens n (cs.drop (s.length - 1))
      | none => [.unknown]

/-- The operators by how they bind, the loosest first. -/
def levels : List (List (String × Operator)) :=
  [[("|", .or)], [("^", .xor)], [("&", .and)], [("==", .equal), ("!=", .unequal)],
   [("<", .less), ("<=", .atMost), (">", .greater), (">=", .atLeast)], [("<<", .shiftLeft), (">>", .shiftRight)],
   [("+", .plus), ("-", .minus)], [("*", .times), ("/", .divided), ("%", .rest)]]

/-! ## Numbers -/

/-- A number brought back to sixty-four bits. -/
def wrap (n : Int) : Int := Int.bmod n 18446744073709551616

/-- The bits of a number. -/
def bits (n : Int) : Nat := (n % 18446744073709551616).toNat

/-- One for what holds and zero for what does not. -/
def ofBool (b : Bool) : Int := if b then 1 else 0

/-- Why an expression cannot be reckoned. -/
inductive Fault
  /-- It is faulty. -/
  | expression (message : String)
  /-- The value of a variable is no number. -/
  | number (value : Raw)
  deriving Repr

/-- What an operator makes of two numbers; nothing can be divided by zero. -/
def apply (o : Operator) (a b : Int) : Except Fault Int :=
  match o with
  | .times => .ok (wrap (a * b))
  | .divided => if b = 0 then .error (.expression "division by zero") else .ok (wrap (a.tdiv b))
  | .rest => if b = 0 then .error (.expression "division by zero") else .ok (wrap (a.tmod b))
  | .plus => .ok (wrap (a + b))
  | .minus => .ok (wrap (a - b))
  | .shiftLeft => .ok (wrap (a * Nat.pow 2 (bits b % 64)))
  | .shiftRight => .ok (Int.fdiv a (Nat.pow 2 (bits b % 64)))
  | .less => .ok (ofBool (decide (a < b)))
  | .atMost => .ok (ofBool (decide (a ≤ b)))
  | .greater => .ok (ofBool (decide (b < a)))
  | .atLeast => .ok (ofBool (decide (b ≤ a)))
  | .equal => .ok (ofBool (decide (a = b)))
  | .unequal => .ok (ofBool (decide (a ≠ b)))
  | .and => .ok (wrap (Nat.land (bits a) (bits b)))
  | .xor => .ok (wrap (Nat.xor (bits a) (bits b)))
  | .or => .ok (wrap (Nat.lor (bits a) (bits b)))

/-- The variables that were set, the last one first. -/
abbrev Settings := List (Raw × Int)

/-- The number that a variable's value spells; an empty one counts as zero. -/
def ofValue (value : Raw) : Except Fault Int :=
  if value.all Numeral.isSpace then .ok 0
  else
    let n := Numeral.signed value
    if n.found && n.inRange && n.rest.all Numeral.isSpace then .ok n.value else .error (.number value)

/-! ## Expressions -/

/-- How far an expression is read, and what it has set. -/
structure Progress where
  tokens : List Token
  settings : Settings := []

/-- Reading a part of an expression. -/
abbrev Reading (α : Type) := StateT Progress (Except Fault) α

/-- What can be asked of the reader: an expression that may set a variable, or one that may not. `live` says that it counts. -/
inductive Goal
  | assignment (live : Bool)
  | choice (live : Bool)

/-- A reader for both. -/
abbrev Reads := Goal → Reading Int

/-- Fails because of a faulty expression. -/
def refuse {α : Type} (message : String) : Reading α := throw (.expression message)

/-- Goes on behind some tokens. -/
def goOn (tokens : List Token) : Reading Unit := modify fun p => { p with tokens }

/-- Takes a sign if it comes next. -/
def taken? (sign : String) : Reading Bool := do
  match (← get).tokens with
  | .sign r :: rest =>
    if r = sign.toList then do
      goOn rest
      return true
    else return false
  | _ => return false

/-- The number of a variable, with the values that variables had before. -/
def lookup (value : Raw → Option Raw) (name : Raw) : Reading Int := do
  match (← get).settings.lookup name with
  | some n => return n
  | none => ofValue ((value name).getD [])

/-- Reads an operand, with a bound. -/
def operand (value : Raw → Option Raw) (self : Reads) (live : Bool) : Nat → Reading Int
  | 0 => refuse "expecting primary"
  | n + 1 => do
    match (← get).tokens with
    | .number m :: rest => do
      goOn rest
      return m
    | .name r :: rest => do
      goOn rest
      if live then lookup value r else return 0
    | .sign ['('] :: rest => do
      goOn rest
      let m ← self (.assignment live)
      if ← taken? ")" then return m else refuse "expecting ')'"
    | .sign ['+'] :: rest => do
      goOn rest
      operand value self live n
    | .sign ['-'] :: rest => do
      goOn rest
      return wrap (-(← operand value self live n))
    | .sign ['!'] :: rest => do
      goOn rest
      return ofBool ((← operand value self live n) == 0)
    | .sign ['~'] :: rest => do
      goOn rest
      return -(← operand value self live n) - 1
    | _ => refuse "expecting primary"

/-- Reads operands with operators of one level between them, from a first operand on, with a bound. -/
def chain (next : Reading Int) (live : Bool) (level : List (String × Operator)) : Nat → Int → Reading Int
  | 0, a => pure a
  | n + 1, a => do
    match (← get).tokens with
    | .sign r :: rest =>
      match level.find? fun p => p.1.toList = r with
      | some (_, o) => do
        goOn rest
        let b ← next
        let c ← if live then apply o a b else pure b
        chain next live level n c
      | none => return a
    | _ => return a

/-- Reads operands with operators of several levels between them. -/
def binary (value : Raw → Option Raw) (self : Reads) (live : Bool) : List (List (String × Operator)) → Reading Int
  | [] => do operand value self live ((← get).tokens.length + 1)
  | level :: levels => do
    let first ← binary value self live levels
    chain (binary value self live levels) live level (← get).tokens.length first

/-- Reads a conjunction, with a bound. -/
def conjunction (value : Raw → Option Raw) (self : Reads) : Nat → Bool → Reading Int
  | 0, live => binary value self live levels
  | n + 1, live => do
    let a ← binary value self live levels
    if ← taken? "&&" then do
      let b ← conjunction value self n (live && a != 0)
      return ofBool (a != 0 && b != 0)
    else return a

/-- Reads a disjunction, with a bound. -/
def disjunction (value : Raw → Option Raw) (self : Reads) : Nat → Bool → Reading Int
  | 0, live => binary value self live levels
  | n + 1, live => do
    let a ← conjunction value self (n + 1) live
    if ← taken? "||" then do
      let b ← disjunction value self n (live && a == 0)
      return ofBool (a != 0 || b != 0)
    else return a

/-- The operator that an assignment applies first. -/
def mixed? (sign : Raw) : Option Operator :=
  (levels.flatten.find? fun p => p.1.toList ++ ['='] = sign && !(["=", "!", "<", ">"].contains p.1)).map (·.2)

/-- Reads an expression by a reader for what is inside it. -/
def step (value : Raw → Option Raw) (self : Reads) : Reads
  | .choice live => do
    let test ← disjunction value self ((← get).tokens.length + 1) live
    if ← taken? "?" then do
      let a ← self (.assignment (live && test != 0))
      if !(← taken? ":") then refuse "expecting ':'"
      let b ← self (.choice (live && test == 0))
      return if test = 0 then b else a
    else return test
  | .assignment live => do
    match (← get).tokens with
    | .name name :: .sign sign :: rest =>
      let o := mixed? sign
      if sign = ['='] || o.isSome then do
        goOn rest
        let b ← self (.assignment live)
        if !live then return b
        let c ← match o with
          | some o => do apply o (← lookup value name) b
          | none => pure b
        modify fun p => { p with settings := (name, c) :: p.settings }
        return c
      else self (.choice live)
    | _ => self (.choice live)

/-- Reads an expression, with a bound on how deep things are inside one another. -/
def readFrom (value : Raw → Option Raw) : Nat → Reads
  | 0, _ => refuse "expecting primary"
  | n + 1, g => step value (readFrom value n) g

/-- Reads and reckons a whole text, with the values of variables; also which ones it sets. -/
def evaluate (value : Raw → Option Raw) (text : Raw) : Except Fault (Int × Settings) :=
  let ts := tokens (text.length + 1) text
  match readFrom value (2 * ts.length + 4) (.assignment true) { tokens := ts } with
  | .ok (n, p) => if p.tokens.isEmpty then .ok (n, p.settings) else .error (.expression "expecting EOF")
  | .error e => .error e

end JobPlane.Shell.Arithmetic

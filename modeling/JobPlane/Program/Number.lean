import JobPlane.Program.Raw

/-!
# Numbers in arguments

How a program reads a number from the beginning of an argument: a whole number in base ten, eight or sixteen, or a number with a
fraction and an exponent, which is rounded to as many binary digits as the program reckons with.
-/

namespace JobPlane.Program

/-- What was read from the beginning of an argument. -/
structure Numeral (α : Type) where
  value : α
  /-- What follows the number. -/
  rest : Raw
  /-- There was a number at all. -/
  found : Bool
  /-- It was in range. -/
  inRange : Bool := true
  deriving Repr

namespace Numeral

/-- Blanks of the simplest kind. -/
def isSpace (c : Char) : Bool := c = ' ' || ('\t' ≤ c && c ≤ '\r')

/-- A sign, if there is one: whether it is a minus, and the rest. -/
def sign : Raw → Bool × Raw
  | '-' :: cs => (true, cs)
  | '+' :: cs => (false, cs)
  | cs => (false, cs)

/-- A number without a sign, whose base shows from how it begins. -/
def magnitude (cs : Raw) : Option (Nat × Raw) :=
  let decimal (base : Nat) (cs : Raw) : Option (Nat × Raw) :=
    match Raw.leading base cs.length cs with
    | ([], _) => none
    | (ds, rest) => some (Raw.value base ds, rest)
  match cs with
  | '0' :: x :: rest =>
    if x = 'x' || x = 'X' then (decimal 16 rest).or (some (0, x :: rest)) else decimal 8 cs
  | _ => decimal 10 cs

/-- The least and the greatest signed number, and the greatest unsigned one. -/
def lowest : Int := -9223372036854775808
@[inherit_doc lowest] def highest : Int := 9223372036854775807
@[inherit_doc lowest] def highestUnsigned : Int := 18446744073709551615

/-- A signed whole number, kept in range. -/
def signed (arg : Raw) : Numeral Int :=
  let (negative, cs) := sign (arg.dropWhile isSpace)
  match magnitude cs with
  | none => { value := 0, rest := arg, found := false }
  | some (n, rest) =>
    let v : Int := if negative then -n else n
    { value := max lowest (min highest v), rest, found := true, inRange := lowest ≤ v && v ≤ highest }

/-- An unsigned whole number; a negative one counts down from the top. -/
def unsigned (arg : Raw) : Numeral Int :=
  let (negative, cs) := sign (arg.dropWhile isSpace)
  match magnitude cs with
  | none => { value := 0, rest := arg, found := false }
  | some (n, rest) =>
    if highestUnsigned < n then { value := highestUnsigned, rest, found := true, inRange := false }
    else { value := (if negative then -(n : Int) else n) % (highestUnsigned + 1), rest, found := true }

end Numeral

/-- A number that may have a fraction. -/
inductive Real
  | finite (negative : Bool) (numerator denominator : Nat)
  | infinite (negative : Bool)
  | undefined (negative : Bool)
  deriving Repr

namespace Real

/-- How exactly a program reckons: the binary digits of a number, the least exponent of the last of them, and the exponent that no
number reaches. -/
structure Precision where
  bits : Nat
  least : Int
  limit : Int

/-- The precision of programs. -/
def Precision.extended : Precision := ⟨64, -16445, 16384⟩

/-- The precision of the shell. -/
def Precision.double : Precision := ⟨53, -1074, 1024⟩

/-- A power with a whole exponent, as a numerator and a denominator. -/
def power (base : Nat) (e : Int) : Nat × Nat :=
  if 0 ≤ e then (Nat.pow base e.toNat, 1) else (1, Nat.pow base (-e).toNat)

/-- A quotient rounded to a whole number, to the even one where two are as near. -/
def divided (n d : Nat) : Nat :=
  let q := n / d
  let r := n % d
  if 2 * r < d then q else if d < 2 * r then q + 1 else q + q % 2

/-- The whole exponent of the greatest power of a base that is no greater than a positive quotient. -/
def magnitude (base n d : Nat) : Int :=
  let guess : Int := (Nat.log2 n : Int) - Nat.log2 d - 1
  let start : Int := if base = 2 then guess else guess * 30103 / 100000 - 1
  let fits (e : Int) : Bool := let (p, q) := power base e; decide (p * d ≤ n * q)
  ([4, 3, 2, 1, 0].find? fun k => fits (start + k)).elim start fun k => start + k

/-- A positive quotient rounded to a precision; nothing if it is out of reach. -/
def rounded (p : Precision) (n d : Nat) : Option (Nat × Nat) :=
  if n = 0 then some (0, 1)
  else
    let e := max p.least (magnitude 2 n d - (p.bits - 1 : Nat))
    let (a, b) := power 2 e
    let m := divided (n * b) (d * a)
    if p.limit ≤ magnitude 2 (m * a) b && m ≠ 0 then none else some (m * a, b)

/-- The exponents beyond which no number is kept. -/
def farthest : Int := 6000

/-- What is left of a text after a word, in capitals or not. -/
def after? (word : String) (cs : Raw) : Option Raw :=
  if (cs.take word.length).map Char.toLower = word.toList then some (cs.drop word.length) else none

/-- Digits, a point and digits, in a base, with how many of them stand behind the point. -/
def digits (base : Nat) (cs : Raw) : Option (Nat × Nat × Raw) :=
  let (whole, rest) := Raw.leading base cs.length cs
  let (part, rest) := match rest with
    | '.' :: more => let (part, after) := Raw.leading base more.length more
                     if whole.isEmpty && part.isEmpty then ([], rest) else (part, after)
    | _ => ([], rest)
  if whole.isEmpty && part.isEmpty then none else some (Raw.value base (whole ++ part), part.length, rest)

/-- An exponent after one of two letters, if digits follow. -/
def exponent (letter : Char) (cs : Raw) : Int × Raw :=
  match cs with
  | c :: more =>
    if c.toLower = letter then
      let (negative, ds) := Numeral.sign more
      match Raw.leading 10 ds.length ds with
      | ([], _) => (0, cs)
      | (ds, rest) => (if negative then -(Raw.value 10 ds : Int) else Raw.value 10 ds, rest)
    else (0, cs)
  | [] => (0, cs)

/-- A number with a power of a base, rounded; also whether it was in range. -/
def scaled (p : Precision) (negative : Bool) (n base : Nat) (e : Int) : Real × Bool :=
  if n = 0 then (finite negative 0 1, true)
  else
    let top := magnitude base n 1 + e
    if farthest < top then (infinite negative, false)
    else if top < -farthest then (finite negative 0 1, false)
    else
      let (a, b) := power base e
      match rounded p (n * a) b with
      | some (0, _) => (finite negative 0 1, false)
      | some (n, d) => (finite negative n d, true)
      | none => (infinite negative, false)

/-- A number from the beginning of an argument. -/
def read (p : Precision) (arg : Raw) : Numeral Real :=
  let (negative, cs) := Numeral.sign (arg.dropWhile Numeral.isSpace)
  let hexadecimal := match after? "0x" cs with
    | some rest => digits 16 rest
    | none => none
  match hexadecimal, digits 10 cs with
  | some (n, behind, rest), _ =>
    let (e, rest) := exponent 'p' rest
    let (value, inRange) := scaled p negative n 2 (e - 4 * behind)
    { value, rest, found := true, inRange }
  | none, some (n, behind, rest) =>
    let (e, rest) := exponent 'e' rest
    let (value, inRange) := scaled p negative n 10 (e - behind)
    { value, rest, found := true, inRange }
  | none, none =>
    match (after? "infinity" cs).or (after? "inf" cs), after? "nan" cs with
    | some rest, _ => { value := infinite negative, rest, found := true }
    | none, some rest => { value := undefined negative, rest, found := true }
    | none, none => { value := finite false 0 1, rest := arg, found := false }

end Real

end JobPlane.Program

import JobPlane.Program.Raw

/-!
# Patterns

What a pattern of the shell matches: characters that stand for themselves, one or any number of arbitrary characters, and sets of
characters between brackets.
-/

namespace JobPlane.Shell

/-- A member of a set of characters. -/
inductive Member
  | range (low high : Char)
  /-- A kind of characters, by its name. -/
  | kind (name : Raw)
  deriving Repr, DecidableEq

namespace Member

/-- Whether a character belongs to a member. -/
def has (m : Member) (c : Char) : Bool :=
  match m with
  | range low high => low ≤ c && c ≤ high
  | kind name =>
    let punctuation := '!' ≤ c && c ≤ '~' && !c.isAlphanum
    match String.ofList name with
    | "alpha" => c.isAlpha
    | "digit" => c.isDigit
    | "alnum" => c.isAlphanum
    | "upper" => c.isUpper
    | "lower" => c.isLower
    | "space" => c = ' ' || ('\t' ≤ c && c ≤ '\r')
    | "blank" => c = ' ' || c = '\t'
    | "punct" => punctuation
    | "graph" => '!' ≤ c && c ≤ '~'
    | "print" => ' ' ≤ c && c ≤ '~'
    | "cntrl" => c < ' ' || c = '\x7f'
    | "xdigit" => Raw.isDigit 16 c
    | _ => false

end Member

/-- An item of a pattern. -/
inductive Item
  | char (c : Char)
  | one
  | any
  | set (negated : Bool) (members : List Member)
  deriving Repr, DecidableEq

/-- A pattern. -/
abbrev Pattern := List Item

namespace Pattern

/-- The members of a set up to its closing bracket, which may be a member only in the first place, and what follows it. The
characters come with whether they may mean anything but themselves. -/
def members : Nat → Bool → List (Char × Bool) → Option (List Member × List (Char × Bool))
  | 0, _, _ => none
  | _, _, [] => none
  | n + 1, _, ('[', true) :: (':', true) :: rest =>
    let name := (rest.takeWhile fun c => c.1.isAlpha).map (·.1)
    match rest.drop name.length with
    | (':', true) :: (']', true) :: rest => (members n false rest).map fun (ms, r) => (.kind name :: ms, r)
    | _ => none
  | n + 1, first, (c, active) :: rest =>
    if c = ']' && active && !first then some ([], rest)
    else match rest with
      | ('-', true) :: (d, active') :: rest' =>
        if d = ']' && active' then (members n false rest).map fun (ms, r) => (.range c c :: ms, r)
        else (members n false rest').map fun (ms, r) => (.range c d :: ms, r)
      | _ => (members n false rest).map fun (ms, r) => (.range c c :: ms, r)

/-- Reads a pattern, with a bound on its length. -/
def readFrom : Nat → List (Char × Bool) → Pattern
  | 0, _ => []
  | _, [] => []
  | n + 1, ('*', true) :: rest => .any :: readFrom n rest
  | n + 1, ('?', true) :: rest => .one :: readFrom n rest
  | n + 1, ('[', true) :: rest =>
    let negated := match rest with
      | (c, true) :: _ => c = '!'
      | _ => false
    let inside := if negated then rest.tail else rest
    match members (inside.length + 1) true inside with
    | some (ms, rest) => .set negated ms :: readFrom n rest
    | none => .char '[' :: readFrom n rest
  | n + 1, (c, _) :: rest => .char c :: readFrom n rest

/-- Reads a pattern from characters that come with whether they may mean anything but themselves. -/
def read (cs : List (Char × Bool)) : Pattern := readFrom cs.length cs

/-- Whether something holds of a text or of what is left of it behind some of its characters. -/
def somewhere (holds : Raw → Bool) : Raw → Bool
  | [] => holds []
  | c :: r => holds (c :: r) || somewhere holds r

/-- Whether a pattern matches a whole text. -/
def matchesAll : Pattern → Raw → Bool
  | [], r => r.isEmpty
  | .char c :: p, r => match r with
    | d :: r => c = d && matchesAll p r
    | [] => false
  | .one :: p, r => match r with
    | _ :: r => matchesAll p r
    | [] => false
  | .set negated ms :: p, r => match r with
    | d :: r => (ms.any fun m => m.has d) != negated && matchesAll p r
    | [] => false
  | .any :: p, r => somewhere (matchesAll p) r

/-- A text without what a pattern matches at one end, as little or as much as possible. -/
def trim (p : Pattern) (atEnd longest : Bool) (r : Raw) : Raw :=
  let lengths := List.range (r.length + 1)
  let cuts := if longest then lengths.reverse else lengths
  if atEnd then
    match cuts.find? fun n => matchesAll p (r.drop (r.length - n)) with
    | some n => r.take (r.length - n)
    | none => r
  else
    match cuts.find? fun n => matchesAll p (r.take n) with
    | some n => r.drop n
    | none => r

end Pattern

end JobPlane.Shell

/-!
# Network addresses

IP addresses and socket addresses in their usual text forms. An IPv4 address is four decimal numbers without leading zeros; an
IPv6 address is eight groups of hexadecimal digits, of which one run of zero groups may be left out and the last two may be
written as an IPv4 address. An address is always written in one form, the shortest: the longest run of at least two zero
groups is left out, the first of several.
-/

namespace JobPlane

/-- An IP address. -/
inductive IpAddress
  /-- Four numbers below 256. -/
  | v4 (a b c d : Nat)
  /-- Eight numbers below 65536. -/
  | v6 (groups : List Nat)
  deriving Repr, DecidableEq, Inhabited

/-- An IP address with a port. -/
structure SocketAddress where
  ip : IpAddress
  port : Nat
  /-- The zone of an IPv6 address, 0 for none. -/
  scope : Nat := 0
  deriving Repr, DecidableEq, Inhabited

namespace Address

/-- Takes something from the front of a text. -/
abbrev Scanner (α : Type) := List Char → Option (α × List Char)

/-- The value of a digit in a base up to sixteen. -/
def digit? (base : Nat) (c : Char) : Option Nat :=
  let n := c.toNat
  let v := if 48 ≤ n && n ≤ 57 then some (n - 48)
    else if 97 ≤ n && n ≤ 102 then some (n - 87)
    else if 65 ≤ n && n ≤ 70 then some (n - 55)
    else none
  v.filter (· < base)

/-- Takes a number of at least one digit, below a bound. -/
def number (base bound : Nat) (maxDigits : Option Nat) (leadingZeros : Bool) : Scanner Nat := fun cs =>
  let ds := (cs.takeWhile fun c => (digit? base c).isSome).filterMap (digit? base)
  let rest := cs.drop ds.length
  let n := ds.foldl (fun n d => n * base + d) 0
  let tooLong := match maxDigits with
    | some m => m < ds.length
    | none => false
  if ds.isEmpty || tooLong || bound ≤ n then none
  else if !leadingZeros && ds.head? = some 0 && 1 < ds.length then none
  else some (n, rest)

/-- Takes one character. -/
def char (c : Char) : Scanner Unit
  | d :: rest => if d = c then some ((), rest) else none
  | [] => none

/-- Takes a number of an IPv4 address. -/
def octet : Scanner Nat := number 10 256 (some 3) false

/-- Takes an IPv4 address. -/
def v4 : Scanner (Nat × Nat × Nat × Nat) := fun cs => do
  let (a, cs) ← octet cs
  let (_, cs) ← char '.' cs
  let (b, cs) ← octet cs
  let (_, cs) ← char '.' cs
  let (c, cs) ← octet cs
  let (_, cs) ← char '.' cs
  let (d, cs) ← octet cs
  return ((a, b, c, d), cs)

/-- Takes a colon first, except before the first group. -/
def separated {α : Type} (first : Bool) (p : Scanner α) : Scanner α := fun cs =>
  if first then p cs else (char ':' cs).bind fun (_, cs) => p cs

/-- Takes at most `limit` groups, the last two perhaps as an IPv4 address: the groups, and whether they end so. -/
def groups (first : Bool) : Nat → List Char → List Nat × Bool × List Char
  | 0, cs => ([], false, cs)
  | limit + 1, cs =>
    match if 0 < limit then separated first v4 cs else none with
    | some ((a, b, c, d), cs) => ([a * 256 + b, c * 256 + d], true, cs)
    | none =>
      match separated first (number 16 65536 (some 4) true) cs with
      | some (g, cs) =>
        let (gs, ipv4, cs) := groups false limit cs
        (g :: gs, ipv4, cs)
      | none => ([], false, cs)

/-- Takes an IPv6 address. -/
def v6 : Scanner (List Nat) := fun cs =>
  let (front, ipv4, cs) := groups true 8 cs
  if front.length = 8 then some (front, cs)
  else if ipv4 then none
  else do
    let (_, cs) ← char ':' cs
    let (_, cs) ← char ':' cs
    let (back, _, cs) := groups true (7 - front.length) cs
    return (front ++ List.replicate (8 - front.length - back.length) 0 ++ back, cs)

/-- Takes a zone, or nothing. -/
def scope : List Char → Nat × List Char := fun cs =>
  match (char '%' cs).bind fun (_, cs) => number 10 4294967296 none true cs with
  | some (n, cs) => (n, cs)
  | none => (0, cs)

/-- Takes a colon and a port. -/
def port : Scanner Nat := fun cs => (char ':' cs).bind fun (_, cs) => number 10 65536 none true cs

end Address

namespace IpAddress

/-- The address a text spells. -/
def parse (s : String) : Option IpAddress :=
  match Address.v4 s.toList with
  | some ((a, b, c, d), []) => some (.v4 a b c d)
  | _ =>
    match Address.v6 s.toList with
    | some (gs, []) => some (.v6 gs)
    | _ => none

/-- Four numbers with dots between them. -/
def dotted (a b c d : Nat) : String := String.intercalate "." ([a, b, c, d].map toString)

/-- The first of the longest runs of zero groups: where it begins, and how long it is. -/
def zeroRun (gs : List Nat) : Nat × Nat :=
  let step := fun (acc : (Nat × Nat) × (Nat × Nat) × Nat) (g : Nat) =>
    let (best, (start, length), i) := acc
    if g = 0 then
      let run := if length = 0 then (i, 1) else (start, length + 1)
      (if best.2 < run.2 then run else best, run, i + 1)
    else (best, (0, 0), i + 1)
  (gs.foldl step ((0, 0), (0, 0), 0)).1

/-- Groups with colons between them. -/
def colons (gs : List Nat) : String := String.intercalate ":" (gs.map fun g => String.ofList (Nat.toDigits 16 g))

/-- The text of an address. -/
def display : IpAddress → String
  | v4 a b c d => dotted a b c d
  | v6 [0, 0, 0, 0, 0, 0xFFFF, g, h] => "::ffff:" ++ dotted (g / 256) (g % 256) (h / 256) (h % 256)
  | v6 gs =>
    let (start, length) := zeroRun gs
    if 1 < length then colons (gs.take start) ++ "::" ++ colons (gs.drop (start + length)) else colons gs

end IpAddress

namespace SocketAddress

/-- The socket address a text spells. -/
def parse (s : String) : Option SocketAddress :=
  let asV4 : Option SocketAddress := do
    let ((a, b, c, d), cs) ← Address.v4 s.toList
    let (port, cs) ← Address.port cs
    if cs.isEmpty then some { ip := .v4 a b c d, port } else none
  match asV4 with
  | some a => some a
  | none => do
    let (_, cs) ← Address.char '[' s.toList
    let (gs, cs) ← Address.v6 cs
    let (scope, cs) := Address.scope cs
    let (_, cs) ← Address.char ']' cs
    let (port, cs) ← Address.port cs
    if cs.isEmpty then some { ip := .v6 gs, port, scope } else none

/-- The text of a socket address. -/
def display (a : SocketAddress) : String :=
  match a.ip with
  | .v4 _ _ _ _ => a.ip.display ++ ":" ++ toString a.port
  | .v6 _ =>
    "[" ++ a.ip.display ++ (if a.scope = 0 then "" else "%" ++ toString a.scope) ++ "]:" ++ toString a.port

end SocketAddress

end JobPlane

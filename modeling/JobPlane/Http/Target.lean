import JobPlane.Text.Cut
import JobPlane.Text.Utf8

/-!
# Request targets

What a request's target names: a path with escapes, and a query of pairs in form encoding. An escape is a percent sign and two
hexadecimal digits; a percent sign that begins none stands for itself. A target is a path, or a whole address with a scheme, an
authority and a path, or an authority alone, or an asterisk.
-/

namespace JobPlane.Http

/-- The value of a hexadecimal digit. -/
def hexDigit? (b : UInt8) : Option UInt8 :=
  if 48 ≤ b && b ≤ 57 then some (b - 48)
  else if 65 ≤ b && b ≤ 70 then some (b - 55)
  else if 97 ≤ b && b ≤ 102 then some (b - 87)
  else none

/-- The bytes of an escaped text. -/
def unescape : Bytes → Bytes
  | 37 :: a :: b :: rest =>
    match hexDigit? a, hexDigit? b with
    | some x, some y => (x * 16 + y) :: unescape rest
    | _, _ => 37 :: unescape (a :: b :: rest)
  | b :: rest => b :: unescape rest
  | [] => []

/-- The text of one segment of a path, if it is text. -/
def segmentText? (segment : List Char) : Option String := Utf8.decode? (unescape (Bytes.ofChars segment))

/-- One side of a query's pair: plus signs stand for blanks, and what cannot be read is replaced. -/
def formText (cs : List Char) : String :=
  Utf8.lossy (unescape (Bytes.ofChars (cs.map fun c => if c = '+' then ' ' else c)))

/-- The pairs of a query. A pair without an equals sign has an empty value, and empty pairs are passed over. -/
def queryPairs (query : List Char) : List (String × String) :=
  ((Text.pieces '&' query).filter fun p => !p.isEmpty).map fun p =>
    match Text.cutFirst '=' p with
    | some (k, v) => (formText k, formText v)
    | none => (formText p, "")

/-- A request's target. -/
structure Target where
  path : List Char
  query : List Char := []
  deriving Repr, DecidableEq

namespace Target

/-- Whether a character may stand in a path. -/
def isPathChar (c : Char) : Bool :=
  let n := c.toNat
  n = 0x21 || (0x24 ≤ n && n ≤ 0x3B) || n = 0x3D || (0x40 ≤ n && n ≤ 0x5F) || (0x61 ≤ n && n ≤ 0x7A) || n = 0x7C ||
    n = 0x7E || c = '"' || c = '\x7b' || c = '\x7d' || 0x7F ≤ n

/-- Whether a character may stand in a query. -/
def isQueryChar (c : Char) : Bool :=
  let n := c.toNat
  n = 0x21 || (0x24 ≤ n && n ≤ 0x3B) || n = 0x3D || (0x3F ≤ n && n ≤ 0x7E) || 0x80 ≤ n

/-- Whether a character may stand in a scheme. -/
def isSchemeChar (c : Char) : Bool := c.isAlphanum || "+-.~".toList.contains c

/-- Whether a character ends an authority. -/
def endsAuthority (c : Char) : Bool := c = '/' || c = '?' || c = '#'

/-- The most bytes a target has. -/
def longest : Nat := 65534

/-- The most characters a scheme has. -/
def longestScheme : Nat := 64

/-- What the characters of an authority have shown so far. What stands before an at sign or between brackets counts no more. -/
structure AuthoritySeen where
  colons : Nat := 0
  opened : Bool := false
  closed : Bool := false
  escaped : Bool := false

/-- Takes in the next character of an authority; nothing if it may not stand there. -/
def AuthoritySeen.next (a : AuthoritySeen) (c : Char) : Option AuthoritySeen :=
  match c with
  | ':' => if a.colons < 8 then some { a with colons := a.colons + 1 } else none
  | '[' => if a.escaped || a.opened then none else some { a with opened := true }
  | ']' => if !a.opened || a.closed then none else some { a with closed := true, colons := 0, escaped := false }
  | '@' => some { a with colons := 0, escaped := false }
  | '%' => some { a with escaped := true }
  | c => if c.isAlphanum || "!$&'()*+,-.;=_~".toList.contains c then some a else none

/-- Whether a text is an authority: a host, perhaps in brackets, after a user and before a port where it has them. Only the user may
be written with escapes, and a user without a host is none. -/
def isAuthority (cs : List Char) : Bool :=
  match cs.foldlM AuthoritySeen.next {} with
  | some a => a.opened == a.closed && a.colons ≤ 1 && !a.escaped && cs.getLast? != some '@'
  | none => false

/-- The scheme a text begins with, and what follows it after a colon and two slashes. -/
def cutScheme (cs : List Char) : Option (List Char × List Char) :=
  match cs.dropWhile isSchemeChar with
  | ':' :: '/' :: '/' :: rest => some (cs.takeWhile isSchemeChar, rest)
  | _ => none

/-- Reads a path with perhaps a query. A fragment after it is left out, and an empty path is the root. -/
def ofPathAndQuery (cs : List Char) : Option Target :=
  let cs := match Text.cutFirst '#' cs with
    | some (before, _) => before
    | none => cs
  let (path, query) := (Text.cutFirst '?' cs).getD (cs, [])
  if path.all isPathChar && query.all isQueryChar then some { path := if path.isEmpty then ['/'] else path, query } else none

/-- Reads a target. One without a path names nothing. -/
def parse (text : String) : Option Target :=
  if longest < text.utf8ByteSize then none
  else match text.toList with
    | [] => none
    | ['*'] => some { path := ['*'] }
    | '/' :: cs => ofPathAndQuery ('/' :: cs)
    | cs =>
      match cutScheme cs with
      | some (scheme, rest) =>
        let authority := rest.takeWhile fun c => !endsAuthority c
        if longestScheme < scheme.length || authority.isEmpty || !isAuthority authority then none
        else ofPathAndQuery (rest.drop authority.length)
      | none => if isAuthority cs then some { path := [] } else none

end Target

/-- What the API has under a path. -/
inductive Resource
  /-- The jobs of an app. -/
  | jobs (app : List Char)
  /-- A job of an app. -/
  | job (app id : List Char)
  /-- A job's log. -/
  | log (app id : List Char)
  deriving Repr, DecidableEq

/-- What a path names. A job's ID may be empty only where something follows it. -/
def Resource.ofPath (path : List Char) : Option Resource :=
  match (Text.pieces '/' path).map String.ofList with
  | ["", "apps", app, "jobs"] => some (.jobs app.toList)
  | ["", "apps", app, "jobs", id] => if id.isEmpty then none else some (.job app.toList id.toList)
  | ["", "apps", app, "jobs", id, "log"] => some (.log app.toList id.toList)
  | _ => none

end JobPlane.Http

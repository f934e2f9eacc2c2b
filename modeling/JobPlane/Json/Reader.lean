import JobPlane.Text.Utf8

/-!
# Reading JSON

Readers take a value from the front of a byte string and hand back the rest. They stop at the first thing that is wrong, and say
which of three kinds it is of: the text is no JSON, it ends too early, or it is JSON of another shape than the one asked for. A
value of a wrong shape is looked at only as far as needed to tell: a number, word or string is read to its end first, an array
or object is not entered.
-/

namespace JobPlane.Json

/-- Why a text could not be read. -/
inductive Fault
  /-- It is not JSON. -/
  | malformed
  /-- It ends too early. -/
  | truncated
  /-- It is JSON of the wrong shape. -/
  | mismatch
  deriving Repr, DecidableEq

/-- Takes a value from the front of a byte string. -/
abbrev Reader (α : Type) := Bytes → Except Fault (α × Bytes)

/-- A blank between values. -/
def isBlank (b : UInt8) : Bool := b = 0x20 || b = 0x0A || b = 0x09 || b = 0x0D

/-- Without the blanks in front. -/
def skipBlanks (bs : Bytes) : Bytes := bs.dropWhile isBlank

/-- A decimal digit. -/
def isDigit (b : UInt8) : Bool := 0x30 ≤ b && b ≤ 0x39

/-- The value of a decimal digit. -/
def digitValue (b : UInt8) : Nat := b.toNat - 0x30

/-! ## Words -/

/-- Expects the bytes of a word. -/
def expectWord : List UInt8 → Bytes → Except Fault Bytes
  | [], bs => .ok bs
  | _ :: _, [] => .error .truncated
  | w :: ws, b :: bs => if b = w then expectWord ws bs else .error .malformed

/-- The bytes of `null` after the first. -/
def nullTail : List UInt8 := [0x75, 0x6C, 0x6C]

/-- The bytes of `true` after the first. -/
def trueTail : List UInt8 := [0x72, 0x75, 0x65]

/-- The bytes of `false` after the first. -/
def falseTail : List UInt8 := [0x61, 0x6C, 0x73, 0x65]

/-! ## Strings -/

/-- The value of a hexadecimal digit. -/
def hexValue (b : UInt8) : Option Nat :=
  if isDigit b then some (digitValue b)
  else if 0x41 ≤ b && b ≤ 0x46 then some (b.toNat - 0x37)
  else if 0x61 ≤ b && b ≤ 0x66 then some (b.toNat - 0x57)
  else none

/-- The number in four hexadecimal digits. -/
def readHex4 : Bytes → Except Fault Nat
  | a :: b :: c :: d :: _ =>
    match hexValue a, hexValue b, hexValue c, hexValue d with
    | some a, some b, some c, some d => .ok (((a * 16 + b) * 16 + c) * 16 + d)
    | _, _, _, _ => .error .malformed
  | _ => .error .truncated

/-- The character of an escape by a letter. -/
def shortEscape (b : UInt8) : Option Char :=
  match b with
  | 0x22 => some '"'
  | 0x5C => some '\\'
  | 0x2F => some '/'
  | 0x62 => some '\x08'
  | 0x66 => some '\x0c'
  | 0x6E => some '\n'
  | 0x72 => some '\x0d'
  | 0x74 => some '\t'
  | _ => none

/-- The escape after a backslash: its character, and how many bytes it takes. Halves of a surrogate pair must come
together. -/
def readEscape : Bytes → Except Fault (Char × Nat)
  | [] => .error .truncated
  | 0x75 :: rest => do
    let n ← readHex4 rest
    if 0xDC00 ≤ n && n ≤ 0xDFFF then throw .malformed
    else if 0xD800 ≤ n && n ≤ 0xDBFF then
      match rest.drop 4 with
      | [] => throw .truncated
      | 0x5C :: [] => throw .truncated
      | 0x5C :: 0x75 :: rest =>
        let m ← readHex4 rest
        if 0xDC00 ≤ m && m ≤ 0xDFFF then
          return (Char.ofNat ((n - 0xD800) * 1024 + (m - 0xDC00) + 0x10000), 11)
        else throw .malformed
      | _ => throw .malformed
    else return (Char.ofNat n, 5)
  | b :: _ =>
    match shortEscape b with
    | some c => .ok (c, 1)
    | none => .error .malformed

/-- Reads a string after its opening quote, with the bytes so far, latest first. That the bytes are UTF-8 is checked at the
closing quote. -/
def readStringFrom (before : List UInt8) : Bytes → Except Fault (List Char × Bytes)
  | [] => .error .truncated
  | b :: rest =>
    if b = 0x22 then
      match Utf8.decodeChars? before.reverse with
      | some cs => .ok (cs, rest)
      | none => .error .malformed
    else if b = 0x5C then
      match readEscape rest with
      | .ok (c, n) => readStringFrom ((String.utf8EncodeChar c).reverse ++ before) (rest.drop n)
      | .error f => .error f
    else if b < 0x20 then .error .malformed
    else readStringFrom (b :: before) rest
termination_by bs => bs.length
decreasing_by
  · simp only [List.length_drop, List.length_cons]; omega
  · simp

/-- Passes over a string after its opening quote, checking no more than the form of its escapes. -/
def skipString : Bytes → Except Fault Bytes
  | [] => .error .truncated
  | b :: rest =>
    if b = 0x22 then .ok rest
    else if b = 0x5C then
      match rest with
      | [] => .error .truncated
      | 0x75 :: more =>
        match readHex4 more with
        | .ok _ => skipString (more.drop 4)
        | .error f => .error f
      | e :: more => if (shortEscape e).isSome then skipString more else .error .malformed
    else if b < 0x20 then .error .malformed
    else skipString rest
termination_by bs => bs.length
decreasing_by all_goals simp only [List.length_drop, List.length_cons]; omega

/-! ## Numbers -/

/-- A number as far as it matters here. -/
inductive Number
  /-- Written without sign, fraction and exponent, and below 2⁶⁴. -/
  | natural (n : Nat)
  /-- Anything else. -/
  | otherwise
  deriving Repr, DecidableEq

/-- The nearest number with 53 significant bits, a half going to the even neighbour. -/
def nearest53 (n : Nat) : Nat :=
  if n < Nat.pow 2 53 then n
  else
    let unit := Nat.pow 2 (Nat.log2 n - 52)
    let q := n / unit
    let r := n % unit
    let up := 2 * r > unit || (2 * r = unit && q % 2 = 1)
    (if up then q + 1 else q) * unit

/-- Whether `digits` times the power of ten is too large for a double. -/
def outOfRange (digits : Nat) (exponent : Int) : Bool :=
  digits ≠ 0 && 0 ≤ exponent &&
    (308 < exponent || Nat.pow 2 1024 - Nat.pow 2 970 ≤ nearest53 digits * nearest53 (Nat.pow 10 exponent.toNat))

/-- Takes digits while the number they spell stays below 2⁶⁴: the number, how many were taken, and the rest. -/
def takeDigits (n taken : Nat) : Bytes → Nat × Nat × Bytes
  | [] => (n, taken, [])
  | b :: bs =>
    if isDigit b && n * 10 + digitValue b < Nat.pow 2 64 then takeDigits (n * 10 + digitValue b) (taken + 1) bs
    else (n, taken, b :: bs)

/-- The end of a number that is not natural. -/
def closeNumber (digits : Nat) (exponent : Int) (bs : Bytes) : Except Fault (Number × Bytes) :=
  if outOfRange digits exponent then .error .malformed else .ok (.otherwise, bs)

/-- Reads an exponent after its letter. -/
def readExponent (digits : Nat) (exponent : Int) (bs : Bytes) : Except Fault (Number × Bytes) :=
  let (down, bs) := match bs with
    | 0x2B :: bs => (false, bs)
    | 0x2D :: bs => (true, bs)
    | bs => (false, bs)
  match bs with
  | [] => .error .truncated
  | b :: _ =>
    if !isDigit b then .error .malformed
    else
      let ds := bs.takeWhile isDigit
      let n := ds.foldl (fun n b => n * 10 + digitValue b) 0
      let rest := bs.dropWhile isDigit
      if n ≤ 2147483647 then closeNumber digits (if down then exponent - n else exponent + n) rest
      else if digits ≠ 0 && !down then .error .malformed
      else .ok (.otherwise, rest)

/-- Reads a fraction after its point. -/
def readFraction (digits : Nat) (exponent : Int) (bs : Bytes) : Except Fault (Number × Bytes) :=
  match bs with
  | [] => .error .truncated
  | b :: _ =>
    if !isDigit b then .error .malformed
    else
      let (digits, taken, bs) := takeDigits digits 0 bs
      let exponent := exponent - taken
      match bs.dropWhile isDigit with
      | 0x65 :: bs | 0x45 :: bs => readExponent digits exponent bs
      | bs => closeNumber digits exponent bs

/-- Reads a number after its sign. Digits past 2⁶⁴ only count as places. -/
def readNumber (negative : Bool) (bs : Bytes) : Except Fault (Number × Bytes) :=
  match bs with
  | [] => .error .truncated
  | b :: rest =>
    if !isDigit b then .error .malformed
    else if b = 0x30 && (rest.headD 0 |> isDigit) then .error .malformed
    else
      let (digits, _, bs) := takeDigits 0 0 bs
      let places := (bs.takeWhile isDigit).length
      match bs.dropWhile isDigit with
      | 0x2E :: bs => readFraction digits places bs
      | 0x65 :: bs | 0x45 :: bs => readExponent digits places bs
      | bs =>
        if places = 0 then .ok (if negative then .otherwise else .natural digits, bs)
        else closeNumber digits places bs

/-- Passes over an exponent after its letter. -/
def skipExponent (bs : Bytes) : Except Fault Bytes :=
  let bs := match bs with
    | 0x2B :: bs => bs
    | 0x2D :: bs => bs
    | bs => bs
  match bs with
  | [] => .error .malformed
  | b :: rest => if isDigit b then .ok (rest.dropWhile isDigit) else .error .malformed

/-- Passes over a number after its sign, of any size. -/
def skipNumber (bs : Bytes) : Except Fault Bytes :=
  match bs with
  | [] => .error .malformed
  | b :: rest =>
    if !isDigit b then .error .malformed
    else if b = 0x30 && (rest.headD 0 |> isDigit) then .error .malformed
    else
      match rest.dropWhile isDigit with
      | 0x2E :: [] => .error .malformed
      | 0x2E :: d :: more =>
        if !isDigit d then .error .malformed
        else match more.dropWhile isDigit with
          | 0x65 :: bs | 0x45 :: bs => skipExponent bs
          | bs => .ok bs
      | 0x65 :: bs | 0x45 :: bs => skipExponent bs
      | bs => .ok bs

/-! ## Values that are passed over -/

/-- What an open bracket belongs to. -/
inductive Bracket
  | array
  | object
  deriving Repr, DecidableEq

/-- After a value, or an opening bracket, inside the given brackets, innermost first: closes brackets, or goes on to where
the next value begins. -/
def skipBetween (afterValue : Bool) : List Bracket → Bytes → Except Fault (List Bracket × Bytes)
  | [], bs => .ok ([], bs)
  | f :: outer, bs =>
    match skipBlanks bs with
    | [] => .error .truncated
    | b :: rest =>
      if b = 0x2C && afterValue then skipKey f outer rest
      else if (b = 0x5D && f = .array) || (b = 0x7D && f = .object) then skipBetween true outer rest
      else if afterValue then .error .malformed
      else skipKey f outer (b :: rest)
where
  /-- Passes over the key of an object's next member; in an array there is none. -/
  skipKey (f : Bracket) (outer : List Bracket) (bs : Bytes) : Except Fault (List Bracket × Bytes) :=
    match f with
    | .array => .ok (.array :: outer, bs)
    | .object =>
      match skipBlanks bs with
      | [] => .error .truncated
      | 0x22 :: rest =>
        match skipString rest with
        | .error e => .error e
        | .ok rest =>
          match skipBlanks rest with
          | [] => .error .truncated
          | 0x3A :: rest => .ok (.object :: outer, rest)
          | _ => .error .malformed
      | _ => .error .malformed

/-- Passes over a value inside the given brackets, and on until all of them are closed. `fuel` bounds the number of
values, each of which takes a byte. -/
def skipValueFrom : Nat → List Bracket → Bytes → Except Fault Bytes
  | 0, _, _ => .error .truncated
  | fuel + 1, open_, bs =>
    let after (rest : Bytes) : Except Fault Bytes :=
      match skipBetween true open_ rest with
      | .error e => .error e
      | .ok ([], rest) => .ok rest
      | .ok (open_, rest) => skipValueFrom fuel open_ rest
    let enter (f : Bracket) (rest : Bytes) : Except Fault Bytes :=
      match skipBetween false (f :: open_) rest with
      | .error e => .error e
      | .ok ([], rest) => .ok rest
      | .ok (open_, rest) => skipValueFrom fuel open_ rest
    match skipBlanks bs with
    | [] => .error .truncated
    | 0x6E :: rest => expectWord nullTail rest >>= after
    | 0x74 :: rest => expectWord trueTail rest >>= after
    | 0x66 :: rest => expectWord falseTail rest >>= after
    | 0x2D :: rest => skipNumber rest >>= after
    | 0x22 :: rest => skipString rest >>= after
    | 0x5B :: rest => enter .array rest
    | 0x7B :: rest => enter .object rest
    | b :: rest => if isDigit b then skipNumber (b :: rest) >>= after else .error .malformed

/-- Passes over a value of any shape and depth. -/
def skipValue (bs : Bytes) : Except Fault Bytes := skipValueFrom (bs.length + 1) [] bs

/-! ## Values of a known shape -/

/-- What is wrong with a value of another shape than the one asked for, which begins with the given bytes. -/
def refuse (bs : Bytes) : Fault :=
  let after {α : Type} (r : Except Fault α) : Fault :=
    match r with
    | .ok _ => .mismatch
    | .error e => e
  match bs with
  | [] => .truncated
  | 0x6E :: rest => after (expectWord nullTail rest)
  | 0x74 :: rest => after (expectWord trueTail rest)
  | 0x66 :: rest => after (expectWord falseTail rest)
  | 0x2D :: rest => after (readNumber true rest)
  | 0x22 :: rest => after (readStringFrom [] rest)
  | 0x5B :: _ | 0x7B :: _ => .mismatch
  | b :: rest => if isDigit b then after (readNumber false (b :: rest)) else .malformed

/-- Reads a string. -/
def readString : Reader String := fun bs =>
  match skipBlanks bs with
  | 0x22 :: rest => (readStringFrom [] rest).map fun (cs, rest) => (String.ofList cs, rest)
  | bs => .error (refuse bs)

/-- Reads a truth value. -/
def readBool : Reader Bool := fun bs =>
  match skipBlanks bs with
  | 0x74 :: rest => (expectWord trueTail rest).map fun rest => (true, rest)
  | 0x66 :: rest => (expectWord falseTail rest).map fun rest => (false, rest)
  | bs => .error (refuse bs)

/-- Reads a natural number below a bound. -/
def readNatural (bound : Nat) : Reader Nat := fun bs =>
  match skipBlanks bs with
  | [] => .error .truncated
  | b :: rest =>
    if isDigit b then
      match readNumber false (b :: rest) with
      | .ok (.natural n, rest) => if n < bound then .ok (n, rest) else .error .mismatch
      | .ok (.otherwise, _) => .error .mismatch
      | .error e => .error e
    else .error (refuse (b :: rest))

/-- Reads a value that may be `null`. -/
def readOption {α : Type} (read : Reader α) : Reader (Option α) := fun bs =>
  match skipBlanks bs with
  | 0x6E :: rest => (expectWord nullTail rest).map fun rest => (none, rest)
  | bs => (read bs).map fun (a, rest) => (some a, rest)

/-- Goes on to the next item of an array: where it begins, or nothing at the closing bracket. -/
def nextItem (first : Bool) (bs : Bytes) : Except Fault (Option Bytes) :=
  match skipBlanks bs with
  | [] => .error .truncated
  | 0x5D :: _ => .ok none
  | b :: rest =>
    if first then .ok (some (b :: rest))
    else if b = 0x2C then
      match skipBlanks rest with
      | [] => .error .truncated
      | 0x5D :: _ => .error .malformed
      | rest => .ok (some rest)
    else .error .malformed

/-- The end of an array. -/
def closeArray (bs : Bytes) : Except Fault Bytes :=
  match skipBlanks bs with
  | [] => .error .truncated
  | 0x5D :: rest => .ok rest
  | _ => .error .malformed

/-- Reads the items of an array, with those so far, latest first. `fuel` bounds their number. -/
def readItems {α : Type} (read : Reader α) : Nat → Bool → List α → Reader (List α)
  | 0, _, _, _ => .error .truncated
  | fuel + 1, first, before, bs => do
    match ← nextItem first bs with
    | none => return (before.reverse, ← closeArray bs)
    | some bs =>
      let (a, bs) ← read bs
      readItems read fuel false (a :: before) bs

/-- Reads an array. -/
def readList {α : Type} (read : Reader α) : Reader (List α) := fun bs =>
  match skipBlanks bs with
  | 0x5B :: rest => readItems read (rest.length + 1) true [] rest
  | bs => .error (refuse bs)

/-- Goes on to the next key of an object: what follows its opening quote, or nothing at the closing brace. -/
def nextKey (first : Bool) (bs : Bytes) : Except Fault (Option Bytes) :=
  match skipBlanks bs with
  | [] => .error .truncated
  | 0x7D :: _ => .ok none
  | b :: rest =>
    if first then if b = 0x22 then .ok (some rest) else .error .malformed
    else if b = 0x2C then
      match skipBlanks rest with
      | [] => .error .truncated
      | 0x22 :: rest => .ok (some rest)
      | _ => .error .malformed
    else .error .malformed

/-- The colon after a key. -/
def readColon (bs : Bytes) : Except Fault Bytes :=
  match skipBlanks bs with
  | [] => .error .truncated
  | 0x3A :: rest => .ok rest
  | _ => .error .malformed

/-- The end of an object. -/
def closeObject (bs : Bytes) : Except Fault Bytes :=
  match skipBlanks bs with
  | [] => .error .truncated
  | 0x7D :: rest => .ok rest
  | _ => .error .malformed

/-- Reads the members of an object, all of one shape, with those so far, latest first. `fuel` bounds their number. -/
def readMembers {α : Type} (read : Reader α) : Nat → Bool → List (String × α) → Reader (List (String × α))
  | 0, _, _, _ => .error .truncated
  | fuel + 1, first, before, bs => do
    match ← nextKey first bs with
    | none => return (before.reverse, ← closeObject bs)
    | some bs =>
      let (k, bs) ← readStringFrom [] bs
      let bs ← readColon bs
      let (a, bs) ← read bs
      readMembers read fuel false ((String.ofList k, a) :: before) bs

/-- Reads an object whose members are all of one shape. -/
def readPairs {α : Type} (read : Reader α) : Reader (List (String × α)) := fun bs =>
  match skipBlanks bs with
  | 0x7B :: rest => readMembers read (rest.length + 1) true [] rest
  | bs => .error (refuse bs)

/-- Reads a value with nothing but blanks after it. -/
def readAll {α : Type} (read : Reader α) (bs : Bytes) : Except Fault α := do
  let (a, rest) ← read bs
  if (skipBlanks rest).isEmpty then return a else throw .malformed

end JobPlane.Json

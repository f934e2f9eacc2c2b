import JobPlane.Bytes

/-!
# Reading UTF-8

A decoder that takes one byte at a time. It holds the part of a character that has come in so far and which bytes may
follow; a byte that may not follow ends the part, which then counts as one unreadable stretch. Two readings are built on it:
`decode?` refuses unreadable bytes, `lossy` puts the replacement character for each unreadable stretch.
-/

namespace JobPlane.Utf8

/-- The part of a character that has come in: how many bytes are missing, the range the next one must be in, and the
bits gathered so far. -/
structure Part where
  missing : Nat
  low : UInt8
  high : UInt8
  bits : Nat
  deriving Repr, DecidableEq

/-- What a byte settles: a character, or a stretch that is not UTF-8. -/
inductive Piece
  | char (c : Char)
  | unreadable
  deriving Repr, DecidableEq

/-- What a byte begins: a character of its own, a longer character, or nothing. -/
inductive Lead
  | char (c : Char)
  | part (p : Part)
  | unreadable
  deriving Repr, DecidableEq

/-- Reads a byte at the start of a character. The first continuation byte is narrowed where a longer form than
needed, a surrogate or a number past U+10FFFF would come out. -/
def lead (b : UInt8) : Lead :=
  if b < 0x80 then .char (Char.ofNat b.toNat)
  else if b < 0xC2 then .unreadable
  else if b < 0xE0 then .part ⟨1, 0x80, 0xBF, b.toNat - 0xC0⟩
  else if b = 0xE0 then .part ⟨2, 0xA0, 0xBF, 0⟩
  else if b = 0xED then .part ⟨2, 0x80, 0x9F, 13⟩
  else if b < 0xF0 then .part ⟨2, 0x80, 0xBF, b.toNat - 0xE0⟩
  else if b = 0xF0 then .part ⟨3, 0x90, 0xBF, 0⟩
  else if b < 0xF4 then .part ⟨3, 0x80, 0xBF, b.toNat - 0xF0⟩
  else if b = 0xF4 then .part ⟨3, 0x80, 0x8F, 4⟩
  else .unreadable

/-- Reads a byte at the start of a character, after the pieces in `before`. -/
def start (before : List Piece) (b : UInt8) : Option Part × List Piece :=
  match lead b with
  | .char c => (none, .char c :: before)
  | .part p => (some p, before)
  | .unreadable => (none, .unreadable :: before)

/-- Reads one byte: the part that is then open, and the pieces so far, latest first. -/
def feed : Option Part × List Piece → UInt8 → Option Part × List Piece
  | (none, before), b => start before b
  | (some p, before), b =>
    if p.low ≤ b ∧ b ≤ p.high then
      let bits := p.bits * 64 + (b.toNat - 0x80)
      if p.missing ≤ 1 then (none, .char (Char.ofNat bits) :: before)
      else (some ⟨p.missing - 1, 0x80, 0xBF, bits⟩, before)
    else start (.unreadable :: before) b

/-- The end of input: an open part is unreadable. -/
def close : Option Part × List Piece → List Piece
  | (none, before) => before.reverse
  | (some _, before) => (.unreadable :: before).reverse

/-- The characters and unreadable stretches of a byte string, in order. -/
def pieces (bs : Bytes) : List Piece := close (bs.foldl feed (none, []))

/-- The character that stands for a stretch that cannot be read. -/
def replacement : Char := '\uFFFD'

/-- A piece as a character. -/
def Piece.toChar : Piece → Char
  | .char c => c
  | .unreadable => replacement

/-- The text of a byte string, one replacement character for each unreadable stretch. -/
def lossyChars (bs : Bytes) : List Char := (pieces bs).map Piece.toChar

/-- The text of a byte string, one replacement character for each unreadable stretch. -/
def lossy (bs : Bytes) : String := String.ofList (lossyChars bs)

/-- The text of a byte string that is UTF-8 throughout. -/
def decodeChars? (bs : Bytes) : Option (List Char) :=
  let ps := pieces bs
  if ps.contains .unreadable then none else some (ps.map Piece.toChar)

/-- The text of a byte string that is UTF-8 throughout. -/
def decode? (bs : Bytes) : Option String := (decodeChars? bs).map String.ofList

end JobPlane.Utf8

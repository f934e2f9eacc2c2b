import JobPlane.Stream.Ends

/-!
# Copying a stream

A loop that carries bytes from a reading end to a writing end through a buffer of its own. It reads whenever its buffer has
room, also while the writing end takes nothing. It ends at the end of input, once everything read is written, or at the first
failure.
-/

namespace JobPlane

/-- A copy under way. -/
structure Copy where
  /-- Read and not yet written. -/
  held : Bytes := []
  /-- How far the buffer is filled; it is used afresh once everything in it is written. -/
  filled : Nat := 0
  /-- The end of input was read. -/
  sourceEnded : Bool := false
  /-- The number of bytes written. -/
  moved : Nat := 0
  /-- How it ended: the number of bytes carried, or the failure. -/
  result : Option (Except StreamError Nat) := none
  deriving Repr

namespace Copy

/-- The size of the buffer. -/
def bufferSize : Nat := 8192

/-- Whether the copy wants to read: its buffer has room and the input has not ended. -/
def wantsInput (c : Copy) : Bool := c.result.isNone && !c.sourceEnded && c.filled < bufferSize

/-- Takes in what a read came to; `none` if that changes nothing. -/
def take (c : Copy) : Reading → Option Copy
  | .data bs => some { c with held := c.held ++ bs, filled := c.filled + bs.length }
  | .eof => some { c with sourceEnded := true }
  | .failed e => some { c with result := some (.error e) }
  | .waiting => none

/-- Takes note of what a write came to; `none` if that changes nothing. -/
def gave (c : Copy) : Writing → Option Copy
  | .took 0 => none
  | .took n =>
    let held := c.held.drop n
    some { c with held, filled := if held.isEmpty then 0 else c.filled, moved := c.moved + n }
  | .failed e => some { c with result := some (.error e) }
  | .waiting => none

/-- One move of the copy. -/
inductive Move
  | read
  | write
  | conclude
  deriving Repr, DecidableEq

/-- Makes a move, where it is possible and changes something. -/
def step {σ τ : Type} [Readable σ] [Writable τ] (c : Copy) (src : σ) (dst : τ) : Move → Option (Copy × σ × τ)
  | .read =>
    if c.wantsInput then
      let (r, src) := Readable.read (bufferSize - c.filled) src
      (c.take r).map fun c => (c, src, dst)
    else none
  | .write =>
    if c.result.isNone && !c.held.isEmpty then
      let (w, dst) := Writable.write c.held dst
      (c.gave w).map fun c => (c, src, dst)
    else none
  | .conclude =>
    if c.result.isNone && c.sourceEnded && c.held.isEmpty then
      some ({ c with result := some (.ok c.moved) }, src, dst)
    else none

/-- The number of bytes that counts as carried: none if the copy failed. -/
def carried (c : Copy) : Nat :=
  match c.result with
  | some (.ok n) => n
  | _ => 0

end Copy

end JobPlane

import JobPlane.Stream.Ends

/-!
# Bounded pipes

One direction of an in-memory connection. Bytes come out in the order they went in, and never more than the capacity are in
between. A pipe is closed by its writer announcing the end, or by either end going away; from then on nothing gets in, while
what is inside can still be read.
-/

namespace JobPlane

/-- A bounded pipe. -/
structure Pipe where
  /-- The most bytes that are inside at a time. -/
  capacity : Nat
  /-- The bytes inside, oldest first. -/
  buffer : Bytes := []
  /-- Nothing gets in any more. -/
  closed : Bool := false
  deriving Repr, DecidableEq, Inhabited

namespace Pipe

/-- The bytes that still fit. -/
def room (p : Pipe) : Nat := p.capacity - p.buffer.length

/-- Puts in as many bytes as fit. -/
def write (bs : Bytes) (p : Pipe) : Writing × Pipe :=
  if p.closed then (.failed .brokenPipe, p)
  else if p.room = 0 then (.waiting, p)
  else
    let n := min p.room bs.length
    (.took n, { p with buffer := p.buffer ++ bs.take n })

/-- Takes out at most `n` bytes; the end of input shows once a closed pipe is empty. -/
def read (n : Nat) (p : Pipe) : Reading × Pipe :=
  match p.buffer with
  | [] => (if p.closed then .eof else .waiting, p)
  | b :: bs =>
    let (now, later) := (b :: bs).splitAt n
    (.data now, { p with buffer := later })

/-- Lets nothing in any more. -/
def close (p : Pipe) : Pipe := { p with closed := true }

/-- The reading end goes away: what is inside is lost. -/
def abandon (p : Pipe) : Pipe := { p with buffer := [], closed := true }

instance : Readable Pipe := ⟨read⟩

instance : Writable Pipe := ⟨write, close⟩

end Pipe

end JobPlane

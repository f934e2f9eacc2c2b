import JobPlane.Stream.Pipe

/-!
# Two-way connections

An in-memory connection as one of its two ends sees it: a pipe that brings bytes and a pipe that takes them away. The other end
sees the same connection with the pipes exchanged.
-/

namespace JobPlane

/-- A connection, seen from one end. -/
structure Link where
  /-- Brings bytes to this end. -/
  incoming : Pipe
  /-- Takes bytes away from this end. -/
  outgoing : Pipe
  deriving Repr, DecidableEq, Inhabited

namespace Link

/-- A fresh connection with so much room each way. -/
def fresh (capacity : Nat) : Link := ⟨{ capacity }, { capacity }⟩

/-- The connection as the other end sees it. -/
def flip (l : Link) : Link := ⟨l.outgoing, l.incoming⟩

/-- Sends bytes. -/
def write (bs : Bytes) (l : Link) : Writing × Link :=
  let (w, outgoing) := l.outgoing.write bs
  (w, { l with outgoing })

/-- Receives at most `n` bytes. -/
def read (n : Nat) (l : Link) : Reading × Link :=
  let (r, incoming) := l.incoming.read n
  (r, { l with incoming })

/-- Announces that this end sends no more. -/
def halfClose (l : Link) : Link := { l with outgoing := l.outgoing.close }

/-- This end goes away: nothing more is read here, and the other end finds the end of input. -/
def drop (l : Link) : Link := ⟨l.incoming.abandon, l.outgoing.close⟩

@[simp] theorem flip_flip (l : Link) : l.flip.flip = l := rfl

end Link

end JobPlane

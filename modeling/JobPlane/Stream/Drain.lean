import JobPlane.Stream.Link

/-!
# Draining a connection

How a connection is given up whose far end may still be sending: our end announces that it sends no more, then reads and counts
whatever still comes, until the far end closes or the time allowed has passed.
-/

namespace JobPlane

/-- A connection being given up. -/
structure Drain where
  /-- The bytes thrown away so far. -/
  discarded : Nat := 0
  /-- It is over: whether the time allowed had passed. -/
  timedOut : Option Bool := none
  deriving Repr, DecidableEq

namespace Drain

/-- The most bytes read at once. -/
def chunk : Nat := 4096

/-- Our end announces that it sends no more. -/
def start (l : Link) : Drain × Link := ({}, l.halfClose)

/-- Reads and counts; nothing if nothing is there, or if it is over. -/
def step (d : Drain) (l : Link) : Option (Drain × Link) :=
  if d.timedOut.isSome then none
  else match l.read chunk with
    | (.data bs, l) => some ({ d with discarded := d.discarded + bs.length }, l)
    | (.eof, l) => some ({ d with timedOut := some false }, l)
    | (.failed _, l) => some ({ d with timedOut := some false }, l)
    | (.waiting, _) => none

/-- The time allowed has passed. -/
def expire (d : Drain) : Drain := if d.timedOut.isSome then d else { d with timedOut := some true }

/-- A far end that sends some bytes, and perhaps closes then. -/
structure Peer where
  sends : Bytes
  closes : Bool
  deriving Repr, DecidableEq

/-- Drains a connection whose far end sends what is left of its bytes as fast as there is room. `fuel` bounds the number of turns,
and a turn in which nothing moves uses up the time allowed. -/
def against : Nat → Drain → Link → Peer → Drain × Link
  | 0, d, l, _ => (d.expire, l)
  | fuel + 1, d, l, peer =>
    let (w, far) := l.flip.write peer.sends
    match w with
    | .took (n + 1) => next fuel d far.flip { peer with sends := peer.sends.drop (n + 1) }
    | _ => next fuel d (if peer.sends.isEmpty && peer.closes then l.flip.drop.flip else l) peer
where
  /-- Our turn. -/
  next (fuel : Nat) (d : Drain) (l : Link) (peer : Peer) : Drain × Link :=
    match d.step l with
    | some (d, l) => against fuel d l peer
    | none => (d.expire, l)

/-- Gives up a connection within so many milliseconds, against a far end that begins to send only then. Where no time is allowed the
far end does not get to anything. -/
def giveUp (ms : Nat) (l : Link) (peer : Peer) : Drain × Link :=
  let (d, l) := start l
  against (2 * peer.sends.length + l.incoming.buffer.length + 1) d l (if ms = 0 then ⟨[], false⟩ else peer)

end Drain

end JobPlane

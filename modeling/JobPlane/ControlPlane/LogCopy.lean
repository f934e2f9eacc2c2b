import JobPlane.Cluster.Basic
import JobPlane.Log.Copy
import JobPlane.Request.Log
import JobPlane.Stream.Sink

/-!
# Logs on their way out

A log that was opened, being copied from its session to where it goes: through a pipe to a reader, or to a sink. The session's
stream is dropped once it is read no more, and the connection to the host is closed once the copy is over, or when the
reader goes away.
-/

namespace JobPlane

/-- Where a log goes. -/
inductive Outlet
  /-- Through a pipe to a reader. -/
  | reader (p : Pipe)
  /-- To a sink. -/
  | sink (s : Sink)

namespace Outlet

/-- Takes bytes. -/
def write (bs : Bytes) : Outlet → Writing × Outlet
  | reader p =>
    let (w, p) := p.write bs
    (w, reader p)
  | sink s =>
    let (w, s) := s.write bs
    (w, sink s)

/-- Takes note that no more bytes come. -/
def finish : Outlet → Outlet
  | reader p => reader p.close
  | sink s => sink s.finish

instance : Writable Outlet := ⟨write, finish⟩

/-- The pipe to a reader loses its writing end. -/
def leave : Outlet → Outlet
  | reader p => reader p.close
  | sink s => sink s

end Outlet

/-- A log being copied. -/
structure LogCopy where
  log : OpenLog
  copying : Log.Copying
  outlet : Outlet := .reader { capacity := 65536 }
  /-- The session's stream was dropped. -/
  released : Bool := false
  /-- The connection was closed. -/
  closed : Bool := false

namespace LogCopy

/-- A copy that has not begun. -/
def start (log : OpenLog) (encoding : Log.Encoding) (outlet : Outlet) : LogCopy :=
  { log, copying := .start encoding log.session.tty, outlet }

/-- One move of a log's copy. -/
inductive Move
  | copy (m : Log.Copying.Move)
  /-- The session's stream is dropped. -/
  | release
  /-- The copy is over, and the connection is closed. -/
  | close
  deriving Repr, DecidableEq

variable {κ : Type} [Cluster κ]

/-- Makes a move, where it is possible. -/
def step (l : LogCopy) (c : κ) : Move → Option (LogCopy × κ)
  | .copy m =>
    let link := Cluster.link l.log.session c
    (l.copying.step link.incoming l.outlet m).map fun (copying, incoming, outlet) =>
      ({ l with copying, outlet }, if l.released then c else Cluster.setLink l.log.session { link with incoming } c)
  | .release =>
    if l.copying.sourceReleased && !l.released then some ({ l with released := true }, Cluster.drop l.log.session c) else none
  | .close =>
    if l.copying.result.isSome && !l.closed then
      some ({ l with closed := true, outlet := l.outlet.leave }, Cluster.close l.log.connection c)
    else none

/-- The reader goes away: the copy stops, and everything it holds is given up. -/
def abandon (l : LogCopy) (c : κ) : LogCopy × κ :=
  let c := if l.released then c else Cluster.drop l.log.session c
  let c := if l.closed then c else Cluster.close l.log.connection c
  let outlet := match l.outlet with
    | .reader p => Outlet.reader p.abandon
    | o => o
  ({ l with released := true, closed := true, outlet,
            copying := { l.copying with result := some (l.copying.result.getD (.ok ())) } }, c)

/-- Reads from the outlet of a log that goes to a reader. -/
def read (n : Nat) (l : LogCopy) : Reading × LogCopy :=
  match l.outlet with
  | .reader p =>
    let (r, p) := p.read n
    (r, { l with outlet := .reader p })
  | .sink _ => (.eof, l)

/-- The sink of a log that is copied to the end, and how that came out. -/
def finished? (l : LogCopy) : Option (Sink × Except StreamError Unit) :=
  match l.outlet, l.copying.result with
  | .sink s, some r => some (s, r)
  | _, _ => none

/-- The moves of each part, in the order in which the parts take turns. -/
def turns : List (List Move) := Log.Copying.turns.map (·.map .copy) ++ [[.release, .close]]

end LogCopy

end JobPlane

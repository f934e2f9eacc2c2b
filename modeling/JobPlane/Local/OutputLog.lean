import JobPlane.Cluster.Attach
import JobPlane.Frame.Basic
import JobPlane.Moves
import JobPlane.Stream.Pipe

/-!
# A job's output, and how an attach is served

A host keeps everything a job writes, chunk by chunk, until the job has exited and its log is closed. An attach is served from
the log: it subscribes at some moment, is sent the chunks from before that moment if it asked for the history, and those from
after it if it asked to follow, up to the close. Who follows is sent a chunk at a time, and of the chunks that have come in
meanwhile only so many of the latest are kept for it.
-/

namespace JobPlane

/-- Everything a job wrote. -/
structure OutputLog where
  chunks : Array Frame := #[]
  /-- Nothing more is written. -/
  closed : Bool := false
  deriving Repr, DecidableEq, Inhabited

namespace OutputLog

/-- The job wrote a chunk. -/
def push (l : OutputLog) (c : Frame) : OutputLog := { l with chunks := l.chunks.push c }

/-- The job writes nothing more. -/
def close (l : OutputLog) : OutputLog := { l with closed := true }

/-- The number of events a follower is told about: a chunk each, and the close. -/
def events (l : OutputLog) : Nat := l.chunks.size + if l.closed then 1 else 0

/-- The bytes a job wrote. -/
def bytes (l : OutputLog) : Nat := total (fun c => c.payload.length) l.chunks.toList

end OutputLog

/-- How far an attach is served. -/
inductive ServerPhase
  /-- It has not subscribed yet. -/
  | registered
  /-- It is sent the history: the next chunk, the number of chunks at the moment it subscribed, and whether it follows then. -/
  | history (next upTo : Nat) (follows : Bool)
  /-- It follows: the next event. -/
  | live (next : Nat)
  | ended
  deriving Repr, DecidableEq, Inhabited

/-- What serves an attach. -/
structure Server where
  flags : AttachFlags
  /-- The job has a terminal, and chunks are sent as they are. -/
  tty : Bool
  phase : ServerPhase := .registered
  /-- What is still to be sent of a chunk, piece by piece. -/
  sending : List Bytes := []
  deriving Repr, DecidableEq, Inhabited

namespace Server

/-- The most events that are kept for a follower. -/
def backlog : Nat := 1024

/-- The next event a follower takes: the next one, or the oldest that is still kept. -/
def catchUp (events next : Nat) : Nat := if backlog < events - next then events - backlog else next

/-- Whether an attach is sent a stream. -/
def wants (f : AttachFlags) : OutputKind → Bool
  | .stdout => f.stdout
  | .stderr => f.stderr

/-- What is sent for a chunk. -/
def pieces (s : Server) (c : Frame) : Except StreamError (List Bytes) :=
  if !wants s.flags c.kind then .ok []
  else if s.tty then .ok [c.payload]
  else c.pieces

/-- Whether nothing more is sent. -/
def isOver (s : Server) : Bool := s.phase = .ended

/-- Nothing more is sent, and the end is announced. -/
def finish (s : Server) (out : Pipe) : Server × Pipe := ({ s with phase := .ended, sending := [] }, out.close)

/-- Begins to send a chunk, after which it goes on in a phase. -/
def begin (s : Server) (c : Option Frame) (phase : ServerPhase) (out : Pipe) : Server × Pipe :=
  match c.map s.pieces with
  | some (.ok ps) => ({ s with sending := ps, phase }, out)
  | _ => s.finish out

/-- Subscribes to a log. -/
def subscribe (s : Server) (log : OutputLog) : Server :=
  let seen := log.chunks.size
  { s with phase := .history (if s.flags.logs then 0 else seen) seen (s.flags.stream && !log.closed) }

/-- Takes the next event; nothing if none is there. -/
def next (s : Server) (log : OutputLog) (out : Pipe) : Option (Server × Pipe) :=
  match s.phase with
  | .registered => some (s.subscribe log, out)
  | .history i upTo follows =>
    if i < upTo then some (s.begin log.chunks[i]? (.history (i + 1) upTo follows) out)
    else if follows then some ({ s with phase := .live upTo }, out)
    else some (s.finish out)
  | .live i =>
    let i := catchUp log.events i
    if i < log.chunks.size then some (s.begin log.chunks[i]? (.live (i + 1)) out)
    else if log.closed then some (s.finish out)
    else none
  | .ended => none

/-- Sends on, or takes the next event once a chunk is sent; nothing if that is not possible now. -/
def step (s : Server) (log : OutputLog) (out : Pipe) : Option (Server × Pipe) :=
  match s.sending with
  | [] => s.next log out
  | [] :: ps => some ({ s with sending := ps }, out)
  | p :: ps =>
    match out.write p with
    | (.waiting, _) => none
    | (.failed _, out) => some (s.finish out)
    | (.took n, out) => some ({ s with sending := p.drop n :: ps }, out)

end Server

end JobPlane

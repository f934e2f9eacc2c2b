import JobPlane.Frame.Split
import JobPlane.Log.Mux

/-!
# Copying a log

A log is copied from a job's output to a sink. Raw logs, and the output of a terminal, go through one forwarder that reads
the source itself. Framed output sent as events goes through a pump that splits it, and a forwarder for each of the two
streams. Forwarders share the sink; each writes what it reads at once as one frame. When all parts are over, the sink is closed: as
complete if every part ended well, and as cut off otherwise.
-/

namespace JobPlane.Log

/-- What is read from the source. -/
inductive Source
  /-- All bytes, forwarded under one name. -/
  | whole (name : String)
  /-- Frames, each stream forwarded under its own name. -/
  | framed
  deriving Repr, DecidableEq

/-- What a log's source is, by how the log is laid out and whether the job has a terminal. -/
def Source.of (encoding : Encoding) (tty : Bool) : Source :=
  match encoding, tty with
  | .raw, _ => .whole "raw"
  | .events, true => .whole "stdout"
  | .events, false => .framed

/-- What a forwarder is doing. -/
inductive Forwarder
  | reading
  /-- It has read a chunk and waits for the sink. -/
  | queued (chunk : Bytes)
  /-- Its frame is being written. -/
  | writing
  | ended (result : Except StreamError Unit)
  deriving Repr

namespace Forwarder

/-- The most bytes read at once. -/
def chunk : Nat := 32768

/-- How it ended, if it has. -/
def result? : Forwarder → Option (Except StreamError Unit)
  | ended r => some r
  | _ => none

/-- Takes in what a read came to; nothing if that changes nothing. -/
def take : Reading → Option Forwarder
  | .data bs => some (.queued bs)
  | .eof => some (.ended (.ok ()))
  | .failed e => some (.ended (.error e))
  | .waiting => none

end Forwarder

/-- Who writes to the sink of a copy. -/
inductive Party
  | forwarder (k : OutputKind)
  | closer
  deriving Repr, DecidableEq

/-- A log being copied. -/
structure Copying where
  source : Source
  splitter : Splitter := {}
  /-- The forwarder of stdout, and the only one of a source that is read whole. -/
  stdout : Forwarder := .reading
  stderr : Forwarder := .reading
  mux : Mux Party
  /-- Closing has begun: how the copying itself ended. -/
  copied : Option (Except StreamError Unit) := none
  /-- All is over: how it ended. -/
  result : Option (Except StreamError Unit) := none

namespace Copying

/-- A copy that has not begun. -/
def start (encoding : Encoding) (tty : Bool) : Copying :=
  { source := .of encoding tty, mux := { encoding } }

/-- One move of a copy. -/
inductive Move
  /-- The pump reads or writes. -/
  | pump
  /-- A forwarder reads. -/
  | read (k : OutputKind)
  /-- A forwarder takes the sink for what it has read. -/
  | acquire (k : OutputKind)
  /-- Whoever has the sink writes on. -/
  | write
  /-- All parts are over, and the sink is taken for closing it. -/
  | close
  deriving Repr, DecidableEq

/-- The forwarder of a stream. -/
def forwarder (c : Copying) : OutputKind → Forwarder
  | .stdout => c.stdout
  | .stderr => c.stderr

/-- The copy with another state of a forwarder. A forwarder that is over gives up its end of the pipe. -/
def setForwarder (c : Copying) (k : OutputKind) (f : Forwarder) : Copying :=
  let c := match k with
    | .stdout => { c with stdout := f }
    | .stderr => { c with stderr := f }
  if f.result?.isSome then { c with splitter := c.splitter.mapPipe k Pipe.abandon } else c

/-- The name a stream is forwarded under. -/
def nameOf (c : Copying) (k : OutputKind) : String :=
  match c.source with
  | .whole name => name
  | .framed => k.name

/-- The first failure of two results, or success. -/
def both (a b : Except StreamError Unit) : Except StreamError Unit :=
  match a with
  | .ok () => b
  | .error e => .error e

/-- How the copying ended, once every part of it is over: a failure of the pump counts before one of a forwarder. -/
def outcome (c : Copying) : Option (Except StreamError Unit) :=
  match c.source with
  | .whole _ => c.stdout.result?
  | .framed =>
    match c.splitter.phase, c.stdout.result?, c.stderr.result? with
    | .ended p, some o, some e => some (both (both p o) e)
    | _, _, _ => none

/-- Whether the source is read no more. -/
def sourceReleased (c : Copying) : Bool :=
  match c.source with
  | .whole _ => c.stdout.result?.isSome
  | .framed => !c.splitter.running

/-- Takes note that a call on the sink is over. -/
def note (c : Copying) : Party × MuxCall × Except StreamError Unit → Copying
  | (.forwarder k, _, .ok ()) => c.setForwarder k .reading
  | (.forwarder k, _, .error e) => c.setForwarder k (.ended (.error e))
  | (.closer, _, r) => { c with result := some (both (c.copied.getD (.ok ())) r) }

/-- Makes a move, where it is possible and changes something. -/
def step {σ τ : Type} [Readable σ] [Writable τ] (c : Copying) (src : σ) (dst : τ) : Move → Option (Copying × σ × τ)
  | .pump =>
    match c.source with
    | .whole _ => none
    | .framed => (c.splitter.step src).map fun (splitter, src) => ({ c with splitter }, src, dst)
  | .read k =>
    match c.forwarder k, c.source, k with
    | .reading, .whole _, .stdout =>
      let (r, src) := Readable.read Forwarder.chunk src
      (Forwarder.take r).map fun f => (c.setForwarder .stdout f, src, dst)
    | .reading, .framed, k =>
      let (r, pipe) := (c.splitter.lane k).pipe.read Forwarder.chunk
      let c := { c with splitter := c.splitter.mapPipe k fun _ => pipe }
      (Forwarder.take r).map fun f => (c.setForwarder k f, src, dst)
    | _, _, _ => none
  | .acquire k =>
    match c.forwarder k with
    | .queued chunk =>
      (c.mux.acquire (.forwarder k) (.write (c.nameOf k) chunk)).map fun mux =>
        ({ c with mux }.setForwarder k .writing, src, dst)
    | _ => none
  | .write =>
    (c.mux.advance dst).map fun p =>
      let c := { c with mux := p.mux }
      (match p.ended with
        | some e => c.note e
        | none => c, src, p.sink)
  | .close =>
    match c.copied, c.outcome with
    | none, some r =>
      let call := match r with
        | .ok () => MuxCall.finish
        | .error _ => .abort
      (c.mux.acquire .closer call).map fun mux => ({ c with mux, copied := some r }, src, dst)
    | _, _ => none

/-- The moves of each part, in the order in which the parts take turns. -/
def turns : List (List Move) :=
  [[.pump], [.write, .acquire .stdout, .read .stdout], [.write, .acquire .stderr, .read .stderr], [.write, .close]]

end Copying

end JobPlane.Log

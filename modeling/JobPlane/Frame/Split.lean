import JobPlane.Frame.Reader
import JobPlane.Moves
import JobPlane.Stream.LinkEnd
import JobPlane.Stream.Pipe

/-!
# Splitting framed output

A pump that reads frames and puts each payload into the pipe of its stream. A full pipe holds the pump up until it is read. A
reader that went away is noticed when a payload of its stream is written; from then on that stream is skipped, and once both
are skipped the pump stops. However the pump ends, both readers find the end of input after what is in their pipes.
-/

namespace JobPlane

/-- One of the two pipes a pump writes to. -/
structure SplitLane where
  pipe : Pipe := { capacity := 65536 }
  /-- No write to the pipe has failed yet. -/
  live : Bool := true
  deriving Repr

/-- What a pump is doing. -/
inductive PumpPhase
  | reading (r : FrameReader)
  /-- Putting the rest of a payload into its pipe. -/
  | writing (kind : OutputKind) (rest : Bytes)
  | ended (result : Except StreamError Unit)
  deriving Repr

/-- A pump with the pipes it writes to. -/
structure Splitter where
  phase : PumpPhase := .reading .fresh
  stdout : SplitLane := {}
  stderr : SplitLane := {}
  deriving Repr

namespace Splitter

/-- The lane of a stream. -/
def lane (s : Splitter) : OutputKind → SplitLane
  | .stdout => s.stdout
  | .stderr => s.stderr

/-- The pump with another lane for a stream. -/
def setLane (s : Splitter) (k : OutputKind) (l : SplitLane) : Splitter :=
  match k with
  | .stdout => { s with stdout := l }
  | .stderr => { s with stderr := l }

/-- Changes the pipe of a stream. -/
def mapPipe (s : Splitter) (k : OutputKind) (f : Pipe → Pipe) : Splitter :=
  s.setLane k { s.lane k with pipe := f (s.lane k).pipe }

/-- The pump ends: nothing more gets into either pipe. -/
def finish (s : Splitter) (result : Except StreamError Unit) : Splitter :=
  { (s.mapPipe .stdout Pipe.close).mapPipe .stderr Pipe.close with phase := .ended result }

/-- A complete frame is passed on, or skipped where its reader is known to be gone. -/
def pass (s : Splitter) (f : Frame) : Splitter :=
  if (s.lane f.kind).live && !f.payload.isEmpty then { s with phase := .writing f.kind f.payload }
  else { s with phase := .reading .fresh }

/-- Takes in what a read came to; nothing if that changes nothing. -/
def take (s : Splitter) (r : FrameReader) : Reading → Option Splitter
  | .waiting => none
  | .failed e => some (s.finish (.error e))
  | .eof => some (s.finish r.close)
  | .data bs =>
    match r.take bs with
    | .error e => some (s.finish (.error e))
    | .ok (.more r) => some { s with phase := .reading r }
    | .ok (.complete f) => some (s.pass f)

/-- A write to the pipe of a stream failed: the stream is skipped from now on, and if both are, the pump stops. -/
def lose (s : Splitter) (k : OutputKind) : Splitter :=
  let s := s.setLane k { s.lane k with live := false }
  if s.stdout.live || s.stderr.live then { s with phase := .reading .fresh }
  else s.finish (.error .readersGone)

/-- Whether the pump still reads or writes. -/
def running (s : Splitter) : Bool :=
  match s.phase with
  | .ended _ => false
  | _ => true

/-- Makes the pump's next move, where it has one now. -/
def step {σ : Type} [Readable σ] (s : Splitter) (src : σ) : Option (Splitter × σ) :=
  match s.phase with
  | .reading r =>
    let (got, src) := Readable.read r.wants src
    (s.take r got).map fun s => (s, src)
  | .writing k rest =>
    match (s.lane k).pipe.write rest with
    | (.waiting, _) => none
    | (.failed _, _) => some (s.lose k, src)
    | (.took n, pipe) =>
      let s := s.setLane k { s.lane k with pipe }
      let rest := rest.drop n
      some ({ s with phase := if rest.isEmpty then .reading .fresh else .writing k rest }, src)
  | .ended _ => none

end Splitter

/-- A pump with scripted input. -/
structure SplitFeed where
  splitter : Splitter := {}
  feed : Feed := {}

namespace SplitFeed

/-- The pump's next move. -/
def step (s : SplitFeed) (_ : Unit) : Option SplitFeed :=
  (s.splitter.step s.feed).map fun (splitter, feed) => { splitter, feed }

/-- The bytes of an arrival, and one for the arrival itself. -/
def weight : Arrival → Nat
  | .bytes bs => bs.length + 1
  | .failure _ => 1

/-- Lets the pump move until it is at rest. -/
def settle (s : SplitFeed) : SplitFeed :=
  let held := match s.splitter.phase with
    | .writing _ rest => rest.length
    | _ => 0
  JobPlane.settle step [()] (2 * total weight s.feed.coming + 2 * held + 2) s

/-- Something arrives. -/
def feedWith (a : Arrival) (s : SplitFeed) : SplitFeed := settle { s with feed := s.feed.add a }

/-- Nothing will arrive any more. -/
def finish (s : SplitFeed) : SplitFeed := settle { s with feed := s.feed.finish }

/-- The reader of a stream goes away. -/
def leave (k : OutputKind) (s : SplitFeed) : SplitFeed := settle { s with splitter := s.splitter.mapPipe k Pipe.abandon }

/-- The most bytes read at once. -/
def chunk : Nat := 65536

/-- The reader of a stream reads once. -/
def readOnce (k : OutputKind) (s : SplitFeed) : Reading × SplitFeed :=
  let (r, pipe) := (s.splitter.lane k).pipe.read chunk
  (r, { s with splitter := s.splitter.mapPipe k fun _ => pipe })

/-- The reader of a stream reads all that comes. -/
def readAll (k : OutputKind) (fuel : Nat) (s : SplitFeed) : Bytes × Standstill × SplitFeed :=
  readToQuiet (readOnce k) settle fuel #[] s

end SplitFeed

end JobPlane

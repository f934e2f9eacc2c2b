import JobPlane.Frame.Basic
import JobPlane.Stream.Sink

/-!
# Writing frames

Frames written to a sink one after another. The pieces of a frame are written in full or until the sink refuses a byte; a
frame that could not be written does not keep the next one from being tried.
-/

namespace JobPlane.Frame

/-- Writes one frame. -/
def write (f : Frame) (s : Sink) : Except StreamError Unit × Sink :=
  match f.pieces with
  | .ok ps => Sink.writePieces ps s
  | .error e => (.error e, s)

/-- Writes frames in order, with what came of each. -/
def writeEach : List Frame → Sink → List (Except StreamError Unit) × Sink
  | [], s => ([], s)
  | f :: fs, s =>
    let (r, s) := f.write s
    let (rs, s) := writeEach fs s
    (r :: rs, s)

end JobPlane.Frame

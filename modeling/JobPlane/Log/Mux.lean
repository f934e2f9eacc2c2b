import JobPlane.Log.Event
import JobPlane.Stream.Sink

/-!
# Several streams into one sink

Named streams share one sink. Whoever writes takes the sink for the whole of a frame, so that frames never interleave, however
many portions the sink takes them in. A call ends with its last portion, or when the sink refuses a byte; that the sink is flushed then,
and closed by the last call, takes no time and does not fail.
-/

namespace JobPlane.Log

/-- What can be asked of a shared sink. -/
inductive MuxCall
  /-- A frame of a named stream. -/
  | write (name : String) (chunk : Bytes)
  /-- The end of a complete log. -/
  | finish
  /-- The end of a log that was cut off. -/
  | abort
  deriving Repr, DecidableEq

namespace MuxCall

/-- What is written for a call, piece by piece. -/
def pieces (encoding : Encoding) : MuxCall → List Bytes
  | .write name chunk =>
    match encoding with
    | .raw => [chunk]
    | .events => recordPieces name chunk
  | .finish =>
    match encoding with
    | .raw => []
    | .events => [endMarker]
  | .abort => []

/-- Whether a call announces the sink's end once its pieces are written. -/
def closes : MuxCall → Bool
  | .write _ _ => false
  | _ => true

end MuxCall

/-- A sink shared by callers, each named by a `κ`. -/
structure Mux (κ : Type) where
  encoding : Encoding
  /-- Who has taken the sink, for which call, and what is still to be written. -/
  holder : Option (κ × MuxCall × List Bytes) := none

namespace Mux

variable {κ τ : Type} [Writable τ]

/-- Takes the sink for a call; nothing if it is taken. -/
def acquire (m : Mux κ) (who : κ) (call : MuxCall) : Option (Mux κ) :=
  match m.holder with
  | none => some { m with holder := some (who, call, call.pieces m.encoding) }
  | some _ => none

/-- A sink can be taken only while nobody has it. -/
theorem acquire_eq_some {m m' : Mux κ} {who : κ} {call : MuxCall} : m.acquire who call = some m' ↔
    m.holder = none ∧ { m with holder := some (who, call, call.pieces m.encoding) } = m' := by
  cases hm : m.holder <;> simp [acquire, hm]

/-- What a move of the holder comes to. -/
structure Progress (κ τ : Type) where
  mux : Mux κ
  sink : τ
  /-- The call that is over, and how it ended. -/
  ended : Option (κ × MuxCall × Except StreamError Unit) := none

/-- Moves the holder's call on by a portion, a piece, or to its end; nothing if the sink is free or takes nothing now. A call whose pieces
are written ends well, as a sink flushes and closes at once. -/
def advance (m : Mux κ) (sink : τ) : Option (Progress κ τ) :=
  match m.holder with
  | none => none
  | some (who, call, []) =>
    some { mux := { m with holder := none }, sink := if call.closes then Writable.finish sink else sink,
           ended := some (who, call, .ok ()) }
  | some (who, call, [] :: ps) => some { mux := { m with holder := some (who, call, ps) }, sink }
  | some (who, call, p :: ps) =>
    match Writable.write p sink with
    | (.waiting, _) => none
    | (.failed e, sink) => some { mux := { m with holder := none }, sink, ended := some (who, call, .error e) }
    | (.took n, sink) => some { mux := { m with holder := some (who, call, p.drop n :: ps) }, sink }

end Mux

namespace MuxCall

/-- Carries out a call on a recording sink that nobody else has taken. -/
def perform (encoding : Encoding) (call : MuxCall) (s : Sink) : Except StreamError Unit × Sink :=
  match Sink.writePieces (call.pieces encoding) s with
  | (.ok (), s) => (.ok (), if call.closes then s.finish else s)
  | (.error e, s) => (.error e, s)

end MuxCall

/-- A shared sink in use: the handles that are alive, and whether the sink itself can still be asked for. -/
structure MuxDesk where
  encoding : Encoding
  sink : Sink := {}
  /-- The handles that are alive, each with the name of its stream. -/
  handles : List (String × String) := []
  /-- The sink was asked back. -/
  consumed : Bool := false

namespace MuxDesk

/-- The stream of a handle. -/
def streamOf (d : MuxDesk) (handle : String) : Option String := d.handles.lookup handle

/-- Adds a handle, in place of an older one of the same label. -/
def bind (d : MuxDesk) (handle name : String) : MuxDesk :=
  { d with handles := (handle, name) :: d.handles.filter (·.1 != handle) }

/-- Gives up a handle. -/
def release (d : MuxDesk) (handle : String) : MuxDesk :=
  { d with handles := d.handles.filter (·.1 != handle) }

/-- Carries out a call on the shared sink. -/
def call (d : MuxDesk) (c : MuxCall) : Except StreamError Unit × MuxDesk :=
  let (r, sink) := c.perform d.encoding d.sink
  (r, { d with sink })

/-- Asks the sink back, which works only while no handle is alive; either way it can be asked for no more. -/
def reclaim (d : MuxDesk) : Option Bytes × MuxDesk :=
  (if d.handles.isEmpty then some d.sink.bytes else none, { d with consumed := true })

end MuxDesk

end JobPlane.Log

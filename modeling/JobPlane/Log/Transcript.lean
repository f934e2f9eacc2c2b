import JobPlane.Json.Record
import JobPlane.Log.Event

/-!
# Reading a log of events

What a reader makes of a log that was sent as events: the text of each stream, and whether and how often the log was declared
complete.
-/

namespace JobPlane.Log

/-- What a log of events says. -/
structure Transcript where
  /-- The streams in the order in which they began, each with all its text. -/
  streams : List (String × String) := []
  /-- The number of records that declare the log complete. -/
  completions : Nat := 0
  /-- A piece of a stream came after the log was declared complete. -/
  continued : Bool := false
  deriving Repr, DecidableEq

namespace Transcript

/-- Adds a piece of a stream. -/
def add (t : Transcript) (name text : String) : Transcript :=
  { t with
    streams := if t.streams.any (·.1 == name) then t.streams.map fun (n, old) => (n, if n == name then old ++ text else old)
      else t.streams ++ [(name, text)]
    continued := t.continued || 0 < t.completions }

/-- Declares the log complete. -/
def complete (t : Transcript) : Transcript := { t with completions := t.completions + 1 }

end Transcript

/-- The fields of a record's object: the stream and the text. -/
def recordFields : List (Json.Field (String × String)) :=
  [.of "stream" .required Json.readString fun v r => (v, r.2), .of "data" .required Json.readString fun v r => (r.1, v)]

/-- Reads a lead off the front. -/
def skip (lead bs : Bytes) : Option Bytes := if lead.isPrefixOf bs then some (bs.drop lead.length) else none

/-- Reads a record with its blank line: the stream and the text. -/
def readRecord (bs : Bytes) : Option ((String × String) × Bytes) := do
  let bs ← skip (Bytes.ofText "data: ") bs
  let (r, bs) ← (Json.readRecord recordFields ("", "") bs).toOption
  let bs ← skip (Bytes.ofText "\n\n") bs
  some (r, bs)

/-- Reads records to the end, after what was read before. `fuel` bounds their number. -/
def readFrom (t : Transcript) : Nat → Bytes → Option Transcript
  | _, [] => some t
  | 0, _ => none
  | fuel + 1, bs =>
    match skip endMarker bs with
    | some bs => readFrom t.complete fuel bs
    | none => do
      let ((name, text), bs) ← readRecord bs
      readFrom (t.add name text) fuel bs

/-- What a log of events says; nothing if it is not made of records. -/
def readTranscript (bs : Bytes) : Option Transcript := readFrom {} bs.length bs

end JobPlane.Log

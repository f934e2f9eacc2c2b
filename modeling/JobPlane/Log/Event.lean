import JobPlane.Json.Writer
import JobPlane.Text.Utf8

/-!
# Log events

A log sent as an event stream is a sequence of records. Each carries a piece of one named stream as a JSON object on a line of
its own; the last one says that the log is complete. A blank line ends every record.
-/

namespace JobPlane.Log

/-- How a log is laid out. -/
inductive Encoding
  /-- The bytes as they are. -/
  | raw
  /-- A sequence of records. -/
  | events
  deriving Repr, DecidableEq, Inhabited

/-- The JSON object of a piece of a named stream. -/
def record (name : String) (chunk : Bytes) : String :=
  Json.writeObject [("stream", Json.writeString name), ("data", Json.writeString (Utf8.lossy chunk))]

/-- The three parts of a record: the field name, the object, the blank line. -/
def recordPieces (name : String) (chunk : Bytes) : List Bytes :=
  [Bytes.ofText "data: ", Bytes.ofText (record name chunk), Bytes.ofText "\n\n"]

/-- The record that ends a complete log. -/
def endMarker : Bytes := Bytes.ofText "event: eof\ndata: \x7b\x7d\n\n"

end JobPlane.Log

import JobPlane.Http.Header
import JobPlane.Http.Target
import JobPlane.Log.Event
import JobPlane.Refusal
import JobPlane.Request.Log
import JobPlane.Request.Run

/-!
# Requests and replies

What the API is asked, and what it replies. The body of a reply is there at once, or is a log that is still being copied, or gives
way to the stream of an interactive job.
-/

namespace JobPlane.Http

/-- A request. -/
structure Request where
  method : String
  target : Target
  headers : Headers := []
  body : Bytes := []
  /-- It came over a connection that can go on in another protocol. -/
  live : Bool := false

namespace Request

/-- Whether a word is a method. -/
def isMethod (word : String) : Bool := !word.isEmpty && word.toList.all Header.isNameChar

/-- Why a request cannot be read. -/
inductive Fault
  | malformed
  | targetTooLong
  | tooManyHeaders
  deriving Repr, DecidableEq

/-- The status such a request is answered with. -/
def Fault.status : Fault → Nat
  | malformed => 400
  | targetTooLong => 414
  | tooManyHeaders => 431

/-- The most header lines a request has over a connection, besides those that name the host and the length of the body. -/
def mostHeaders : Nat := 98

/-- Whether a text can be told from what stands around it on the first line of a request. -/
def isOneWord (text : String) : Bool := !text.isEmpty && text.toList.all fun c => 0x20 < c.toNat && c.toNat ≠ 0x7F

/-- A request of its parts: the method, the target, the header lines and the body. Over a live connection, blanks around the value
of a header do not count. -/
def ofParts (live : Bool) (method target : String) (lines : List (String × Bytes)) (body : Bytes) : Except Fault Request := do
  let malformed {α : Type} (a : Option α) : Except Fault α := a.elim (.error .malformed) .ok
  let headers ← malformed <| lines.mapM fun (name, value) => do
    let name ← Header.name? name
    if value.all isValueByte then some (name, if live then withoutBlanks value else value) else none
  if !isMethod method || (live && !isOneWord target) then .error .malformed
  else if live && mostHeaders < lines.length then .error .tooManyHeaders
  else if live && Target.longest < target.utf8ByteSize then .error .targetTooLong
  else do
    let target ← malformed (Target.parse target)
    return { method, target, headers, body, live }

/-- Whether the connection ends with the reply: a line of `Connection` lists that, and no line after it asks to keep it. -/
def closes (r : Request) : Bool :=
  r.live && (r.headers.lines "connection").foldl (fun closing line =>
    if closing then !listsWord [line] "keep-alive" else listsWord [line] "close") false

/-- Whether the connection can be taken over: it is live, the request asks for another protocol, and its `Connection`
lists that. Which protocol it asks for is not looked at. -/
def canSwitch (r : Request) : Bool :=
  r.live && r.headers.any (·.1 == "upgrade") && listsWord (r.headers.lines "connection") "upgrade"

/-- Whether the request's `Accept` lists a media type. -/
def accepts (r : Request) (mediaType : String) : Bool := Http.accepts (r.headers.lines "accept") mediaType

end Request

/-- The body of a reply. -/
inductive Content
  | bytes (bs : Bytes)
  /-- A log, copied as it comes. -/
  | log (l : OpenLog) (encoding : Log.Encoding)
  /-- The connection goes on as the stream of a job. -/
  | stream (j : AttachedJob)
  deriving DecidableEq

/-- A reply. -/
structure Reply where
  status : Nat
  headers : List (String × String) := []
  content : Content := .bytes []
  deriving DecidableEq

namespace Reply

/-- What kind of body a reply says it has. -/
def contentType (r : Reply) : String := (r.headers.lookup "content-type").getD ""

/-- The media type of a log, by how it is laid out. -/
def logType : Log.Encoding → String
  | .events => "text/event-stream; charset=utf-8"
  | .raw => "application/octet-stream"

/-- Whether the body of a reply is made of events. -/
def isEvents (r : Reply) : Bool := r.contentType == logType .events

/-- A reply with a body of text of some type. -/
def ofText (status : Nat) (contentType text : String) : Reply :=
  { status, headers := [("content-type", contentType)], content := .bytes (Bytes.ofText text) }

/-- A reply in JSON. -/
def json (status : Nat) (text : String) : Reply := ofText status "application/json" text

/-- A reply in words. -/
def plain (status : Nat) (text : String) : Reply := ofText status "text/plain; charset=utf-8" text

/-- The reply with an announcement that the connection ends with it. -/
def closing (r : Reply) : Reply :=
  match r.headers.lookup "connection" with
  | some _ => { r with headers := r.headers.map fun (k, v) => (k, if k == "connection" then v ++ ", close" else v) }
  | none => { r with headers := r.headers ++ [("connection", "close")] }

/-- The reply to a request that cannot be read. -/
def unread (f : Request.Fault) : Reply := closing { status := f.status }

/-- The reply to a request that is refused. -/
def refused (r : Refusal) : Reply := json r.status r.body

end Reply

end JobPlane.Http

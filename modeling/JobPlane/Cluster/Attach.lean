/-!
# Attaching to a job

What an attach asks for: which parts of a job's input and output it includes, and the size of the terminal it comes from.
-/

namespace JobPlane

/-- The parts of a job's input and output that an attach includes. -/
structure AttachFlags where
  stdout : Bool := false
  stderr : Bool := false
  stdin : Bool := false
  /-- Output from before the attach. -/
  logs : Bool := false
  /-- Output from after the attach, until the job exits. -/
  stream : Bool := false
  deriving Repr, DecidableEq, Inhabited

namespace AttachFlags

/-- Whether the flags include all of others. -/
def contains (f g : AttachFlags) : Bool :=
  (f.stdout || !g.stdout) && (f.stderr || !g.stderr) && (f.stdin || !g.stdin) && (f.logs || !g.logs) &&
    (f.stream || !g.stream)

/-- The flags with the one of a given name added; a name of none changes nothing. -/
def add (f : AttachFlags) (name : String) : AttachFlags :=
  match name with
  | "STDOUT" => { f with stdout := true }
  | "STDERR" => { f with stderr := true }
  | "STDIN" => { f with stdin := true }
  | "LOGS" => { f with logs := true }
  | "STREAM" => { f with stream := true }
  | _ => f

/-- The flags with the given names. -/
def ofNames (names : List String) : AttachFlags := names.foldl add {}

/-- The names of the flags that are set. -/
def names (f : AttachFlags) : List String :=
  [(f.stdout, "STDOUT"), (f.stderr, "STDERR"), (f.stdin, "STDIN"), (f.logs, "LOGS"), (f.stream, "STREAM")].filterMap
    fun (on, name) => if on then some name else none

/-- The names of the flags that are set, in one text. -/
def display (f : AttachFlags) : String := String.intercalate "|" f.names

end AttachFlags

/-- An attach to a job. -/
structure AttachRequest where
  job : String
  flags : AttachFlags
  /-- Rows of the terminal, 0 if unknown. -/
  height : UInt16 := 0
  /-- Columns of the terminal, 0 if unknown. -/
  width : UInt16 := 0
  deriving Repr, DecidableEq, Inhabited

/-- How waiting for an attach to be confirmed comes out. -/
inductive Awaited
  | ready
  /-- The host could not connect it. -/
  | refused (reason : String)
  /-- The host gave it up without a word. -/
  | closed
  /-- The time allowed passed first. -/
  | timedOut
  deriving Repr, DecidableEq, Inhabited

end JobPlane

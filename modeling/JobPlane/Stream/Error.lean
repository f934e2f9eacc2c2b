/-!
# What goes wrong on a stream

Each failure of reading or writing a stream is named by its cause. Its kind and its wording follow from the cause. A failure
that comes from outside, such as one of a source that breaks, brings its own kind and wording.
-/

namespace JobPlane

/-- The broad class of a failure. -/
inductive FaultKind
  | brokenPipe
  | unexpectedEof
  | invalidData
  | invalidInput
  | notFound
  | notADirectory
  | invalidFilename
  | argumentListTooLong
  | permissionDenied
  | addrNotAvailable
  | connectionReset
  | timedOut
  | other
  deriving Repr, DecidableEq, Inhabited

namespace FaultKind

/-- All classes. -/
def all : List FaultKind :=
  [brokenPipe, unexpectedEof, invalidData, invalidInput, notFound, notADirectory, invalidFilename, argumentListTooLong,
   permissionDenied, addrNotAvailable, connectionReset, timedOut, other]

/-- The name of a class. -/
def name : FaultKind → String
  | brokenPipe => "BrokenPipe"
  | unexpectedEof => "UnexpectedEof"
  | invalidData => "InvalidData"
  | invalidInput => "InvalidInput"
  | notFound => "NotFound"
  | notADirectory => "NotADirectory"
  | invalidFilename => "InvalidFilename"
  | argumentListTooLong => "ArgumentListTooLong"
  | permissionDenied => "PermissionDenied"
  | addrNotAvailable => "AddrNotAvailable"
  | connectionReset => "ConnectionReset"
  | timedOut => "TimedOut"
  | other => "Other"

/-- The class of a name, and the class of all others where there is none. -/
def ofName (s : String) : FaultKind := (all.find? (·.name == s)).getD .other

end FaultKind

/-- A failure of reading or writing a stream. -/
inductive StreamError
  /-- Writing where nobody can read any more, or after the end was announced. -/
  | brokenPipe
  /-- A sink that takes no more bytes. -/
  | sinkFull
  /-- Both readers of a split stream are gone. -/
  | readersGone
  /-- The input ends inside a frame header. -/
  | truncatedHeader
  /-- The input ends inside a frame's payload. -/
  | truncatedPayload
  /-- A frame header names a stream that does not exist. -/
  | unknownTag (tag : UInt8)
  /-- A payload whose length does not fit into a header. -/
  | frameTooLarge
  /-- A failure from outside. -/
  | outside (kind : FaultKind) (message : String)
  deriving Repr, DecidableEq, Inhabited

namespace StreamError

/-- The class of a failure. -/
def kind : StreamError → FaultKind
  | brokenPipe | sinkFull | readersGone => .brokenPipe
  | truncatedHeader | truncatedPayload => .unexpectedEof
  | unknownTag _ => .invalidData
  | frameTooLarge => .invalidInput
  | outside k _ => k

/-- The wording of a failure. -/
def message : StreamError → String
  | brokenPipe => "broken pipe"
  | sinkFull => "sink full"
  | readersGone => "all demux readers closed"
  | truncatedHeader => "truncated frame header"
  | truncatedPayload => "early eof"
  | unknownTag t => "unknown stream tag " ++ toString t.toNat
  | frameTooLarge => "frame too large"
  | outside _ m => m

end StreamError

end JobPlane

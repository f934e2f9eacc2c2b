import JobPlane.Bytes
import JobPlane.Stream.Error

/-!
# Frames

Output of a job that has no terminal travels in frames: a header of eight bytes, then the payload. The header is a tag for the
stream, three bytes that are zero, and the length of the payload in four bytes, most significant first.
-/

namespace JobPlane

/-- The two output streams of a job. -/
inductive OutputKind
  | stdout
  | stderr
  deriving Repr, DecidableEq, Inhabited

namespace OutputKind

/-- The name of a stream. -/
def name : OutputKind → String
  | stdout => "stdout"
  | stderr => "stderr"

/-- The tag of a stream. -/
def tag : OutputKind → UInt8
  | stdout => 1
  | stderr => 2

/-- The stream with a tag. -/
def ofTag : UInt8 → Except StreamError OutputKind
  | 1 => .ok stdout
  | 2 => .ok stderr
  | t => .error (.unknownTag t)

@[simp] theorem ofTag_tag (k : OutputKind) : ofTag k.tag = .ok k := by cases k <;> rfl

end OutputKind

/-- A piece of output, with the stream it belongs to. -/
structure Frame where
  kind : OutputKind
  payload : Bytes
  deriving Repr, DecidableEq, Inhabited

namespace Frame

/-- The length of a header. -/
def headerLength : Nat := 8

/-- The header of a payload of the given length. -/
def header (kind : OutputKind) (length : Nat) : Except StreamError Bytes :=
  if length < 4294967296 then .ok (kind.tag :: 0 :: 0 :: 0 :: Bytes.ofLength length)
  else .error .frameTooLarge

/-- What is written for a frame: nothing at all for an empty payload, else the header and the payload. -/
def pieces (f : Frame) : Except StreamError (List Bytes) :=
  if f.payload.isEmpty then .ok []
  else (header f.kind f.payload.length).map fun h => [h, f.payload]

/-- The bytes of a frame whose payload is not empty and fits. -/
def encode (f : Frame) : Bytes :=
  f.kind.tag :: 0 :: 0 :: 0 :: Bytes.ofLength f.payload.length ++ f.payload

end Frame

end JobPlane

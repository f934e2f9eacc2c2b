import JobPlane.Frame.Basic
import JobPlane.Stream.Feed

/-!
# Reading frames

A reader that asks for the bytes it still needs, takes what comes, and has a frame once its payload is complete. The tag is
looked at as soon as the header is complete, before any of the payload is asked for.
-/

namespace JobPlane

/-- The part of a frame that has come in. -/
inductive FrameReader
  /-- Fewer bytes than a header has. -/
  | header (got : Bytes)
  /-- A header, and fewer bytes than its payload has. -/
  | payload (kind : OutputKind) (length : Nat) (got : Bytes)
  deriving Repr, DecidableEq, Inhabited

namespace FrameReader

/-- The reader between two frames. -/
def fresh : FrameReader := .header []

/-- The number of bytes it asks for next. -/
def wants : FrameReader → Nat
  | header got => Frame.headerLength - got.length
  | payload _ length got => length - got.length

/-- What reading has come to: more is needed, or a frame is complete. -/
inductive Progress
  | more (r : FrameReader)
  | complete (f : Frame)
  deriving Repr, DecidableEq

/-- A reader whose payload is complete has a frame. -/
def settle : FrameReader → Progress
  | header got => .more (header got)
  | payload kind length got =>
    if length ≤ got.length then .complete ⟨kind, got⟩ else .more (payload kind length got)

/-- Takes in bytes, no more than were asked for. -/
def take (bs : Bytes) : FrameReader → Except StreamError Progress
  | header got =>
    let got := got ++ bs
    if got.length < Frame.headerLength then .ok (.more (header got))
    else (OutputKind.ofTag (got.headD 0)).map fun kind => settle (payload kind (Bytes.toLength (got.drop 4)) [])
  | payload kind length got => .ok (settle (payload kind length (got ++ bs)))

/-- The end of input: clean between two frames, and a failure inside one. -/
def close : FrameReader → Except StreamError Unit
  | header [] => .ok ()
  | header _ => .error .truncatedHeader
  | payload _ _ _ => .error .truncatedPayload

/-- Reads one stretch to its end, with the frames so far, latest first. `fuel` bounds the number of reads; the length of the
stretch is enough, since every read takes at least a byte. -/
def readStretch : Nat → FrameReader → List Frame → Bytes → FrameReader × List Frame × Option StreamError
  | 0, r, before, _ => (r, before, none)
  | _, r, before, [] => (r, before, none)
  | fuel + 1, r, before, b :: bs =>
    match (b :: bs).splitAt r.wants with
    | (now, later) =>
      match r.take now with
      | .error e => (r, before, some e)
      | .ok (.more r) => readStretch fuel r before later
      | .ok (.complete f) => readStretch fuel fresh (f :: before) later

/-- Reads on from scripted input until it stops, with the frames so far, latest first. -/
def readFrom (r : FrameReader) (before : List Frame) : List Arrival → List Frame × Except StreamError Unit
  | [] => (before.reverse, r.close)
  | .failure e :: _ => (before.reverse, .error e)
  | .bytes bs :: rest =>
    match readStretch bs.length r before bs with
    | (r, before, none) => readFrom r before rest
    | (_, before, some e) => (before.reverse, .error e)

/-- All frames of scripted input, and how reading ends. -/
def readAll (input : List Arrival) : List Frame × Except StreamError Unit := readFrom fresh [] input

end FrameReader

end JobPlane

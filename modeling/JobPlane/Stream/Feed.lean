import JobPlane.Stream.Ends

/-!
# Scripted input

Input whose arrival is laid down in advance: stretches of bytes and failures in order, and whether the end of input follows
them. A read never joins two stretches.
-/

namespace JobPlane

/-- Something that arrives. -/
inductive Arrival
  | bytes (bs : Bytes)
  | failure (e : StreamError)
  deriving Repr, DecidableEq

/-- Input that arrives as laid down. -/
structure Feed where
  /-- What is still to come, in order. -/
  coming : List Arrival := []
  /-- The end of input follows. -/
  ended : Bool := false
  deriving Repr, DecidableEq

namespace Feed

/-- Takes at most `n` bytes of the next stretch. Empty stretches are passed over. -/
def readFrom (n : Nat) (ended : Bool) : List Arrival → Reading × Feed
  | [] => (if ended then .eof else .waiting, ⟨[], ended⟩)
  | .failure e :: rest => (.failed e, ⟨rest, ended⟩)
  | .bytes [] :: rest => readFrom n ended rest
  | .bytes (b :: bs) :: rest =>
    match (b :: bs).splitAt n with
    | (now, []) => (.data now, ⟨rest, ended⟩)
    | (now, later) => (.data now, ⟨.bytes later :: rest, ended⟩)

/-- Takes at most `n` bytes of the next stretch. -/
def read (n : Nat) (f : Feed) : Reading × Feed := readFrom n f.ended f.coming

/-- Something more is to come. -/
def add (a : Arrival) (f : Feed) : Feed := { f with coming := f.coming ++ [a] }

/-- Nothing more comes after what is laid down. -/
def finish (f : Feed) : Feed := { f with ended := true }

instance : Readable Feed := ⟨read⟩

end Feed

end JobPlane

import JobPlane.Bytes
import JobPlane.Stream.Error

/-!
# Reading and writing ends

What an attempt to read or write a stream can come to. An attempt never blocks: where no byte can move now it says so, and
whoever made it tries again once something else has moved.

A writing end is taken to hand on at once what it took, and to close at once when its end is announced, as pipes and buffers in memory
do: flushing and closing can neither fail nor wait. What can go wrong with a writing end goes wrong with a write.
-/

namespace JobPlane

/-- What an attempt to read comes to. -/
inductive Reading
  /-- Some bytes, never none. -/
  | data (bytes : Bytes)
  /-- The end of input. -/
  | eof
  | failed (e : StreamError)
  /-- Nothing is there yet. -/
  | waiting
  deriving Repr, DecidableEq

/-- What an attempt to write comes to. -/
inductive Writing
  /-- So many bytes were taken, from the front. -/
  | took (n : Nat)
  | failed (e : StreamError)
  /-- No byte can be taken now. -/
  | waiting
  deriving Repr, DecidableEq

/-- Something bytes are read from, at most a given number at a time. -/
class Readable (σ : Type) where
  read : Nat → σ → Reading × σ

/-- Something bytes are written to. It holds nothing back, so that nothing is to be flushed. -/
class Writable (τ : Type) where
  write : Bytes → τ → Writing × τ
  /-- Announces that no more bytes come. This succeeds at once. -/
  finish : τ → τ

end JobPlane

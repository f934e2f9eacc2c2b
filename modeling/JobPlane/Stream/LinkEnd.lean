import JobPlane.Stream.Link

/-!
# Ends of connections

An end of a connection that is part of something larger. Whoever holds the end reads and writes it while the rest moves by itself,
and goes on for as long as there is something to read, or room to write.
-/

namespace JobPlane

/-- How a stream stands once nothing more comes from it. -/
inductive Standstill
  | waiting
  | ended
  | failed (e : StreamError)
  deriving Repr, DecidableEq

variable {σ : Type}

/-- Reads all that comes while the rest moves: what was read, and how the stream then stands. `fuel` bounds the number of
reads. -/
def readToQuiet (read : σ → Reading × σ) (settle : σ → σ) : Nat → Array UInt8 → σ → Bytes × Standstill × σ
  | 0, before, s => (before.toList, .waiting, s)
  | fuel + 1, before, s =>
    match read s with
    | (.data bs, s) => readToQuiet read settle fuel (before ++ bs) (settle s)
    | (.eof, s) => (before.toList, .ended, s)
    | (.failed e, s) => (before.toList, .failed e, s)
    | (.waiting, s) => (before.toList, .waiting, s)

/-- Writes all that is taken while the rest moves: the number of bytes written, or the failure that kept all of them from being
written, wherever among them it came. Writing nothing always succeeds. `fuel` bounds the number of writes. -/
def writeToQuiet (write : Bytes → σ → Writing × σ) (settle : σ → σ) : Nat → Nat → Bytes → σ → Except StreamError Nat × σ
  | 0, done, _, s => (.ok done, s)
  | _, done, [], s => (.ok done, s)
  | fuel + 1, done, b :: bs, s =>
    match write (b :: bs) s with
    | (.took 0, s) => (.ok done, settle s)
    | (.took n, s) => writeToQuiet write settle fuel (done + n) ((b :: bs).drop n) (settle s)
    | (.failed e, s) => (.error e, s)
    | (.waiting, s) => (.ok done, s)

/-- An end of a connection that is part of a `σ`. -/
structure LinkEnd (σ : Type) where
  get : σ → Link
  set : Link → σ → σ
  /-- Lets everything else move. -/
  settle : σ → σ

namespace LinkEnd

/-- The most bytes read at once. -/
def chunk : Nat := 65536

/-- Changes the end, and lets the rest move. -/
def change (e : LinkEnd σ) (f : Link → Link) (s : σ) : σ := e.settle (e.set (f (e.get s)) s)

/-- Reads once. -/
def readOnce (e : LinkEnd σ) (s : σ) : Reading × σ :=
  let (r, l) := (e.get s).read chunk
  (r, e.set l s)

/-- Writes once. -/
def writeOnce (e : LinkEnd σ) (bs : Bytes) (s : σ) : Writing × σ :=
  let (w, l) := (e.get s).write bs
  (w, e.set l s)

/-- Reads all that comes. -/
def readAll (e : LinkEnd σ) (fuel : Nat) (s : σ) : Bytes × Standstill × σ :=
  let (bs, stands, s) := readToQuiet e.readOnce e.settle fuel #[] s
  (bs, stands, e.settle s)

/-- Writes all that is taken. -/
def writeAll (e : LinkEnd σ) (bs : Bytes) (s : σ) : Except StreamError Nat × σ :=
  writeToQuiet e.writeOnce e.settle (bs.length + 1) 0 bs s

end LinkEnd

end JobPlane

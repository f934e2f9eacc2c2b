import JobPlane.Stream.Ends

/-!
# Recording sinks

A sink that keeps what is written to it. It may take writes in portions, which are laid down by the position the next byte
goes to, and it may refuse all bytes past a limit for good. Where it takes no byte at all it refuses.
-/

namespace JobPlane

/-- A sink that records. -/
structure Sink where
  /-- The most bytes it ever holds, if there is a bound. -/
  limit : Option Nat := none
  /-- The most bytes it takes at once, by the number of bytes it holds. -/
  portion : Nat → Option Nat := fun _ => none
  /-- What was written. -/
  written : Array UInt8 := #[]
  /-- How often its end was announced. -/
  finished : Nat := 0

instance : Inhabited Sink := ⟨{}⟩

namespace Sink

/-- What was written. -/
def bytes (s : Sink) : Bytes := s.written.toList

/-- The most bytes the next write can bring in. -/
def accepts (s : Sink) (n : Nat) : Nat :=
  let n := match s.limit with
    | some l => min n (l - s.written.size)
    | none => n
  match s.portion s.written.size with
  | some p => min n p
  | none => n

/-- Takes a portion of the bytes, or refuses them where it takes none. -/
def write (bs : Bytes) (s : Sink) : Writing × Sink :=
  match bs with
  | [] => (.took 0, s)
  | b :: rest =>
    let n := s.accepts (rest.length + 1)
    if n = 0 then (.failed .sinkFull, s)
    else (.took n, { s with written := s.written ++ (b :: rest).take n })

/-- Counts an announcement of the end. -/
def finish (s : Sink) : Sink := { s with finished := s.finished + 1 }

instance : Writable Sink := ⟨write, finish⟩

/-- Writes all bytes, portion by portion, until one is refused. -/
def writeAll (bs : Bytes) (s : Sink) : Except StreamError Unit × Sink :=
  match bs with
  | [] => (.ok (), s)
  | b :: rest =>
    let n := s.accepts (rest.length + 1)
    if n = 0 then (.error .sinkFull, s)
    else writeAll ((b :: rest).drop n) { s with written := s.written ++ (b :: rest).take n }
termination_by bs.length
decreasing_by simp only [List.length_drop, List.length_cons]; omega

/-- Writes pieces in order until a byte is refused. -/
def writePieces : List Bytes → Sink → Except StreamError Unit × Sink
  | [], s => (.ok (), s)
  | p :: ps, s =>
    match s.writeAll p with
    | (.ok (), s) => writePieces ps s
    | (.error e, s) => (.error e, s)

end Sink

end JobPlane

import JobPlane.Program.Files

/-!
# What programs read and write

The streams that programs share and the files they make. A program has descriptors, numbers that each lead to a stream; several
descriptors, also of several programs, may lead to the same one, and then what one of them reads is gone for the others.
-/

namespace JobPlane.Program

/-- What a descriptor leads to. -/
inductive Stream
  /-- Something to read: what is left of it, and whether more may come. -/
  | source (rest : Raw) (more : Bool)
  /-- Something to write to: the pieces written, last first. -/
  | sink (pieces : List Raw)
  /-- A file to write to. -/
  | file (place : Place)
  | directory
  | null
  | full
  deriving Repr, DecidableEq

/-- The descriptors of a program, by what streams they lead to. -/
abbrev Descriptors := List (Nat × Nat)

namespace Descriptors

/-- Lets a descriptor lead to a stream. -/
def set (ds : Descriptors) (n stream : Nat) : Descriptors := (n, stream) :: ds.filter fun d => d.1 != n

/-- Closes a descriptor. -/
def close (ds : Descriptors) (n : Nat) : Descriptors := ds.filter fun d => d.1 != n

end Descriptors

/-- How a program ended, or that it has not. -/
inductive Ending
  | exited (code : Nat)
  | killed (signal : Nat)
  /-- It waits for input that may come, or for good. -/
  | waiting
  deriving Repr, DecidableEq

/-- The streams of all programs and the files they made. -/
structure World where
  streams : Array Stream := #[]
  files : List (Place × Raw) := []
  deriving Repr

namespace World

/-- Why a descriptor cannot be used. -/
def badDescriptor : Raw := "Bad file descriptor".toList

/-- Makes a new stream. -/
def add (w : World) (s : Stream) : Nat × World := (w.streams.size, { w with streams := w.streams.push s })

/-- The stream of a descriptor. -/
def stream? (w : World) (ds : Descriptors) (n : Nat) : Option Stream := (ds.lookup n).bind fun i => w.streams[i]?

/-- Everything written to a stream. -/
def written (w : World) (i : Nat) : Raw :=
  match w.streams[i]? with
  | some (.sink pieces) => pieces.reverse.flatten
  | _ => []

/-- The files that were made. -/
def made (w : World) : List Place := w.files.map (·.1)

/-- What a file holds. -/
def content (w : World) (place : Place) : Raw := (w.files.lookup place).getD []

/-- Sets what a file holds. -/
def fill (w : World) (place : Place) (r : Raw) : World :=
  { w with files := (place, r) :: w.files.filter fun f => f.1 != place }

/-- Writes to a descriptor, or tells why not. -/
def write (w : World) (ds : Descriptors) (n : Nat) (r : Raw) : Except Raw World :=
  match ds.lookup n, w.stream? ds n with
  | some i, some (.sink pieces) => .ok { w with streams := w.streams.setIfInBounds i (.sink (r :: pieces)) }
  | _, some (.file place) => .ok (w.fill place (w.content place ++ r))
  | _, some .null => .ok w
  | _, some .full => if r.isEmpty then .ok w else .error "No space left on device".toList
  | _, _ => .error badDescriptor

/-- Writes to a descriptor if that is possible. -/
def say (w : World) (ds : Descriptors) (n : Nat) (r : Raw) : World :=
  match w.write ds n r with
  | .ok w => w
  | .error _ => w

/-- What can be read from a descriptor, and whether more may come, or why nothing can. -/
def peek (w : World) (ds : Descriptors) (n : Nat) : Except Raw (Raw × Bool) :=
  match w.stream? ds n with
  | some (.source rest more) => .ok (rest, more)
  | some .null => .ok ([], false)
  | some .full => .ok ([], true)
  | some .directory => .error "Is a directory".toList
  | _ => .error badDescriptor

/-- Leaves of what can be read from a descriptor only a rest. -/
def leave (w : World) (ds : Descriptors) (n : Nat) (rest : Raw) : World :=
  match ds.lookup n, w.stream? ds n with
  | some i, some (.source _ more) => { w with streams := w.streams.setIfInBounds i (.source rest more) }
  | _, _ => w

/-- The stream of a device. -/
def ofDevice (w : World) (ds : Descriptors) : Device → Except SystemError (Nat × World)
  | .null => .ok (w.add .null)
  | .full => .ok (w.add .full)
  | .endless => .ok (w.add (.source [] true))
  | .descriptor n => match ds.lookup n with
    | some i => .ok (i, w)
    | none => .error .notFound

/-- Opens a file to be read. -/
def openToRead (w : World) (ds : Descriptors) (here : Place) (path : Raw) : Except SystemError (Nat × World) :=
  match Entry.ofPath w.made here path with
  | .error e => .error e
  | .ok (.directory _) => .ok (w.add .directory)
  | .ok (.program _) => .ok (w.add (.source [] false))
  | .ok (.device d) => w.ofDevice ds d
  | .ok (.file place) => .ok (w.add (.source (w.content place) false))

/-- Opens a file to be written to, and makes it if there is none. It is emptied unless writing goes on at its end. Nothing is
said if it is a directory. -/
def openToWrite (w : World) (ds : Descriptors) (here : Place) (path : Raw) (append : Bool) :
    Except (Option SystemError) (Nat × World) :=
  let make (place : Place) := (w.fill place (if append then w.content place else [])).add (.file place)
  match Entry.ofPath w.made here path with
  | .ok (.directory _) => .error none
  | .ok (.program _) => .ok (w.add .null)
  | .ok (.device d) => (w.ofDevice ds d).mapError some
  | .ok (.file place) => .ok (make place)
  | .error .notFound =>
    let name := (path.reverse.takeWhile (· ≠ '/')).reverse
    if name.isEmpty then .error (if path.isEmpty then some .notFound else none)
    else match Entry.ofPath w.made here (path.take (path.length - name.length) ++ ['.']) with
      | .ok (.directory place) => .ok (make (place ++ [name]))
      | .ok _ => .error (some .notADirectory)
      | .error e => .error (some e)
  | .error e => .error (some e)

end World

end JobPlane.Program

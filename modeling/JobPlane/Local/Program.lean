import JobPlane.Job.Environment
import JobPlane.Shell.Run
import JobPlane.Stream.Error

/-!
# The programs of jobs

What the command of a job starts when it runs as a plain process. A command that is not found, is no program or cannot be passed on
at all does not start. What a program prints is a function of its input so far and of whether more may come, so a program that goes
on is looked at again from its beginning when there is more to read.
-/

namespace JobPlane.Program

/-- Why a process does not start. -/
inductive SpawnError
  | noCommand
  | nulByte
  /-- The operating system refuses. -/
  | system (e : SystemError)
  /-- A failure from outside. -/
  | outside (message : String)
  deriving Repr, DecidableEq

namespace SpawnError

/-- The class of a failure. -/
def kind : SpawnError → FaultKind
  | noCommand | nulByte => .invalidInput
  | system e => e.kind
  | outside _ => .other

/-- The wording of a failure. -/
def message : SpawnError → String
  | noCommand => "job has no command to run"
  | nulByte => "nul byte found in provided data"
  | system e => e.message
  | outside m => m

end SpawnError

/-- Whether a text has a zero byte, which no process can be given. -/
def hasNul (s : String) : Bool := s.toList.contains '\x00'

/-- The longest argument or variable that can be passed on, with the byte that ends it. -/
def longestArgument : Nat := 131072

/-- The room for all arguments and variables together, with the pointers to them. -/
def argumentRoom : Nat := 2097152

/-- Whether texts can be passed on as arguments and variables. -/
def canPass (texts : List Raw) : Bool :=
  texts.all (fun r => r.length < longestArgument) && texts.foldl (fun n r => n + r.length + 9) 0 ≤ argumentRoom

/-- A program that was started. -/
structure Process where
  known : Known
  /-- The name it was called by. -/
  name : Raw
  args : List Raw
  environment : List (Raw × Raw)

/-- Starts a program by a command, with an environment. -/
def spawn (cmd env : List String) : Except SpawnError Process :=
  match cmd with
  | [] => .error .noCommand
  | program :: args =>
    let vars := Environment.apply env
    if (program :: args).any hasNul || vars.entries.any fun (k, v) => hasNul k || hasNul v then .error .nulByte
    else
      let name := Raw.ofText program
      let args := args.map Raw.ofText
      let environment := vars.entries.map fun (k, v) => (Raw.ofText k, Raw.ofText v)
      match find Entry.start (environment.lookup "PATH".toList) name with
      | .error e => .error (.system e)
      | .ok known =>
        if canPass (name :: args ++ environment.map fun (k, v) => k ++ '=' :: v) then .ok { known, name, args, environment }
        else .error (.system .argumentsTooLong)

/-- What a program has come to. -/
structure Outcome where
  ending : Ending
  stdout : Bytes
  stderr : Bytes

/-- The exit code of a program that has ended, unless it was killed. -/
def Outcome.code (o : Outcome) : Option Nat :=
  match o.ending with
  | .exited code => some code
  | _ => none

/-- The descriptors that every program begins with. -/
def standard : Descriptors := [(0, 0), (1, 1), (2, 2)]

/-- What a program has come to with some input, of which more may come. -/
def Process.perform (p : Process) (input : Bytes) (more : Bool) : Outcome :=
  let world : World := { streams := #[.source (Raw.ofBytes input) more, .sink [], .sink []] }
  let (ending, world) := Shell.Run.run p.known p.name p.args p.environment Entry.start standard world
  { ending, stdout := Raw.toBytes (world.written 1), stderr := Raw.toBytes (world.written 2) }

end JobPlane.Program

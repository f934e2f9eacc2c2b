import JobPlane.Config
import JobPlane.Local.Container
import JobPlane.Local.Host
import JobPlane.Local.Program

/-!
# The processes of jobs

What runs for a job: a known program, or an obedient process that does nothing by itself and is told what to write and when to
exit. A program goes on whenever there is something for it to read, and what it has written before is not written again.
-/

namespace JobPlane

/-- A process. -/
inductive Worker
  /-- Does only what it is told. -/
  | obedient (args : List String) (vars : TextMap)
  /-- A program, with the input it has gathered and how much of its output and of its error output is written. -/
  | program (p : Program.Process) (input : Bytes) (written complained : Nat)

namespace Worker

/-- The command that names an obedient process. -/
def obedientCommand : String := "job"

/-- Starts a job as a plain process. An obedient process gets its environment, but not its arguments, from the system. -/
def launchPlain (j : JobSpec) : Except Program.SpawnError Worker :=
  match j.config.cmd with
  | command :: args =>
    let vars := Environment.apply j.config.env
    if command = obedientCommand && !vars.entries.any (fun (k, v) => Program.hasNul k || Program.hasNul v) then
      .ok (.obedient args vars)
    else (Program.spawn j.config.cmd j.config.env).map fun p => .program p [] 0 0
  | [] => .error .noCommand

/-- Starts a job in a container. -/
def launchContained (sandbox : Sandbox) (j : JobSpec) : Except Program.SpawnError Worker :=
  let args := Container.runArguments sandbox j
  if args.any Program.hasNul then .error .nulByte else .ok (.obedient args .empty)

/-- Starts a job. -/
def launch (runtime : Runtime) (sandbox : Sandbox) (j : JobSpec) : Except Program.SpawnError Worker :=
  match runtime with
  | .process => launchPlain j
  | .docker => launchContained sandbox j

/-- The most bytes of output in a chunk. -/
def chunkSize : Nat := 8192

/-- Output cut into chunks. -/
def chunks (kind : OutputKind) (bs : Bytes) : List Frame :=
  match bs with
  | [] => []
  | b :: rest =>
    ⟨kind, (b :: rest).take chunkSize⟩ :: chunks kind ((b :: rest).drop chunkSize)
termination_by bs.length
decreasing_by simp only [List.length_drop, List.length_cons, chunkSize]; omega

/-- What a process does next. -/
inductive Deed
  /-- It writes, and goes on as another process. -/
  | write (frames : List Frame) (rest : Worker)
  /-- It writes and exits, with a code unless it is killed. -/
  | exit (frames : List Frame) (code : Option Nat)

/-- What a process does next by itself, with what a read of its input comes to; nothing if it waits. One that would wait even at the
end of its input reads nothing. -/
def next (w : Worker) (r : Reading) : Option Deed :=
  match w with
  | .obedient _ _ => none
  | .program p input written complained =>
    let (more, input) := match r with
      | .waiting => (true, input)
      | .data bs => (true, input ++ bs)
      | _ => (false, input)
    let o := p.perform input more
    let frames := chunks .stdout (o.stdout.drop written) ++ chunks .stderr (o.stderr.drop complained)
    if o.ending != .waiting then some (.exit frames o.code)
    else
      let reads := match r with
        | .data _ => (p.perform input false).ending != .waiting
        | _ => false
      if frames.isEmpty && !reads then none
      else some (.write frames (.program p input o.stdout.length o.stderr.length))

end Worker

end JobPlane

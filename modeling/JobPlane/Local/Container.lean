import JobPlane.Config
import JobPlane.Job.Record

/-!
# Sandboxed containers

The arguments that start a job in a container: what the sandbox allows comes first, then the job's environment, its image and its
command.
-/

namespace JobPlane.Container

/-- The name of a job's container. -/
def name (j : JobSpec) : String := "jobgate-" ++ j.id

/-- The options a sandbox sets for a job. -/
def options (s : Sandbox) (j : JobSpec) : List String :=
  ["--rm", "--name=" ++ name j] ++
  (if j.config.attachStdin then ["--interactive"] else []) ++
  (if j.config.tty then ["--tty"] else []) ++
  (if s.networkDisabled then ["--network=none"] else []) ++
  (match s.memoryLimit with | some l => ["--memory=" ++ l] | none => []) ++
  (match s.cpuLimit with | some l => ["--cpus=" ++ l] | none => []) ++
  ["--cap-drop=ALL", "--security-opt=no-new-privileges", "--read-only"]

/-- The arguments that start a job. -/
def runArguments (s : Sandbox) (j : JobSpec) : List String :=
  "run" :: options s j ++ j.config.env.flatMap (fun pair => ["--env", pair]) ++ [j.config.image.display] ++ j.config.cmd

end JobPlane.Container

import JobPlane.Job.Environment
import JobPlane.Job.Record

/-!
# From a request to a job

The job a host is given for a request: the release's image, the request's command, both environments, and a standard input
that is open exactly when the job is interactive.
-/

namespace JobPlane.JobSpec

/-- The job of a request, under a fresh ID. -/
def build (id : String) (app : App) (new : NewJob) (image : ImageRef) (releaseEnv : TextMap) (interactive : Bool) : JobSpec :=
  { id
    appId := app.id
    releaseId := new.releaseId
    tags := TextMap.ofList [("app", app.id), ("release", new.releaseId)]
    config :=
      { image
        cmd := new.cmd
        env := Environment.render releaseEnv new.env
        attachStdin := interactive
        attachStdout := true
        attachStderr := true
        stdinOnce := interactive
        openStdin := interactive
        tty := new.tty } }

end JobPlane.JobSpec

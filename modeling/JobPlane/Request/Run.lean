import JobPlane.Job.Build
import JobPlane.Job.Id
import JobPlane.Plan

/-!
# Running a job

The release, its artifact and image are looked up before the cluster is asked anything. An interactive job is attached to before
it is submitted, so that none of its output is missed, and the attach is given up again if the job cannot be submitted.
-/

namespace JobPlane

/-- How long parts of a run may take, in milliseconds. -/
structure RunLimits where
  /-- Waiting for an attach to be confirmed. -/
  attachWait : Nat := 30000
  /-- Draining an attach whose job was not submitted. -/
  drain : Nat := 1000
  deriving Repr, DecidableEq, Inhabited

/-- An interactive job with its live stream, and the connection that is kept while the stream is in use. -/
structure AttachedJob where
  id : JobId
  session : Session
  connection : Connection
  deriving Repr, DecidableEq

/-- What running a job comes to. -/
inductive Dispatched
  | scheduled (s : JobSummary)
  | attached (j : AttachedJob)
  deriving Repr, DecidableEq

namespace Run

/-- What an interactive run asks of a job's attach. -/
def attachFlags : AttachFlags := { stdout := true, stderr := true, stdin := true, stream := true }

/-- What is told about a job that was submitted without an attach. -/
def summary (id : JobId) (new : NewJob) : JobSummary :=
  { id := id.display, releaseId := new.releaseId, cmd := some new.cmd }

/-- What a wait for confirmation amounts to, where it is no confirmation. -/
def waitRefusal : Awaited → Option Refusal
  | .ready => none
  | .refused reason => some (.ofCluster .attachWait (.unavailable reason))
  | .closed => some (.ofCluster .attachWait .closed)
  | .timedOut => some (.transport .attachWait "timed out waiting for job to start")

/-- Submits a job that nobody is attached to. -/
def submit (id : JobId) (job : JobSpec) (new : NewJob) : Plan (Except Refusal Dispatched) := do
  match ← Plan.call (.addJobs [(id.host, [job])]) with
  | .ok () => return .ok (.scheduled (summary id new))
  | .error e => return .error (.ofCluster .schedule e)

/-- Waits until a submitted job's attach is confirmed. -/
def confirm (limits : RunLimits) (id : JobId) (c : Connection) (s : Session) : Plan (Except Refusal Dispatched) :=
  let attached := Dispatched.attached { id, session := s, connection := c }
  if s.pending then do
    match waitRefusal (← Plan.call (.awaitReady s limits.attachWait)) with
    | none => return .ok attached
    | some r =>
      Plan.call (.drop s)
      return .error r
  else .done (.ok attached)

/-- Attaches to a job over a connection to its host, then submits it. -/
def attachAndSubmit (limits : RunLimits) (id : JobId) (job : JobSpec) (new : NewJob) (c : Connection) :
    Plan (Except Refusal Dispatched) := do
  let request := { job := job.id, flags := attachFlags, height := new.lines, width := new.columns }
  match ← Plan.call (.attach c request true) with
  | .error e => return .error (.ofCluster .attach e)
  | .ok s =>
    match ← Plan.call (.addJobs [(id.host, [job])]) with
    | .ok () => confirm limits id c s
    | .error e =>
      let _ ← Plan.call (.detach c job.id)
      let _ ← Plan.call (.drain s limits.drain)
      return .error (.ofCluster .schedule e)

/-- Runs a job whose description is complete on a host of the cluster. -/
def place (select : Selector) (limits : RunLimits) (job : JobSpec) (new : NewJob) (interactive : Bool) :
    Plan (Except Refusal Dispatched) := do
  match ← Plan.call .listHosts with
  | .error e => return .error (.ofCluster .listHosts e)
  | .ok hosts =>
    match select hosts with
    | .error r => return .error r
    | .ok host =>
      let id : JobId := ⟨host, job.id⟩
      if interactive then
        match ← Plan.call (.dial host) with
        | .error e => return .error (.ofCluster .connect e)
        | .ok c => Plan.closingOnRefusal c (attachAndSubmit limits id job new c)
      else submit id job new

end Run

/-- Runs a new job of an app. -/
def runJob (select : Selector) (limits : RunLimits) (app : App) (new : NewJob) (interactive : Bool) :
    Plan (Except Refusal Dispatched) :=
  if new.releaseId.isEmpty then .done (.error (.validation "releaseID" "is required"))
  else do
    match ← Plan.call (.release new.releaseId) with
    | .error e => return .error (.ofCatalog e)
    | .ok release =>
      match ← Plan.call (.artifact release.artifactId) with
      | .error e => return .error (.ofCatalog e)
      | .ok artifact =>
        match ImageRef.ofUri artifact.uri with
        | .error e => return .error (.ofCatalog e)
        | .ok image =>
          let fresh ← Plan.call .freshId
          Run.place select limits (.build fresh app new image release.env interactive) new interactive

end JobPlane

import JobPlane.Job.Id
import JobPlane.Plan

/-!
# Listing and stopping jobs

What runs is asked of the cluster each time. A job of an app is told about by its process type if it has one, and else by its
command.
-/

namespace JobPlane

/-- What is told about a job that runs on a host. -/
def JobSpec.summary (j : JobSpec) (host : String) : JobSummary :=
  { id := (JobId.mk host j.id).display
    jobType := if j.jobType.isEmpty then none else some j.jobType
    releaseId := j.releaseId
    cmd := if j.jobType.isEmpty then some j.config.cmd else none }

/-- The jobs of an app in a snapshot of the cluster. -/
def Snapshot.jobsOf (s : Snapshot) (app : String) : List JobSummary :=
  s.flatMap fun (_, h) => (h.jobs.filter (·.appId == app)).map (·.summary h.id)

/-- Lists the running jobs of an app. -/
def listJobs (app : String) : Plan (Except Refusal (List JobSummary)) := do
  match ← Plan.call .listHosts with
  | .error e => return .error (.ofCluster .listHosts e)
  | .ok hosts => return .ok (hosts.jobsOf app)

/-- A text that spells no job's ID. -/
def noSuchJob (id : String) : Refusal := .notFound ("job " ++ id)

/-- Stops the job with a cluster-wide ID. -/
def killJob (id : String) : Plan (Except Refusal Unit) :=
  match JobId.parse id with
  | none => .done (.error (noSuchJob id))
  | some j => do
    match ← Plan.call (.dial j.host) with
    | .error e => return .error (.ofCluster .connect e)
    | .ok c =>
      let stopped ← Plan.call (.stop c j.job)
      Plan.call (.close c)
      match stopped with
      | .ok () => return .ok ()
      | .error e => return .error (.ofCluster .stop e)

end JobPlane

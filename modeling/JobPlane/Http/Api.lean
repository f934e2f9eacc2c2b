import JobPlane.Http.MediaType
import JobPlane.Http.Message
import JobPlane.Request.Jobs

/-!
# The API

Listing, running and stopping the jobs of an app, and reading their logs, over HTTP. A request is answered by a plan. What is
wrong with the request itself is answered before anything is looked up, and an app that is not in the catalog before the cluster
is asked.
-/

namespace JobPlane.Http

/-- The media type a run request accepts if it is interactive. -/
def attachMediaType : String := "application/vnd.jobgate.attach"

/-- The protocol a connection goes on in once it carries a job's stream. -/
def attachProtocol : String := "jobgate-attach"

/-- The longest body a run request may have. -/
def longestBody : Nat := 2097152

/-- What the API is set up with. -/
structure Api where
  /-- How a host is chosen for a new job. -/
  select : Selector
  limits : RunLimits := {}
  /-- How many milliseconds a log waits for its job to start. -/
  logWait : Nat := 30000

namespace Api

/-- Goes on with an app of the catalog. -/
def withApp (id : String) (next : App → Plan Reply) : Plan Reply := do
  match ← Plan.call (.app id) with
  | .ok app => next app
  | .error e => return .refused (.ofCatalog e)

/-- Lists an app's jobs. -/
def list (appId : String) : Plan Reply :=
  withApp appId fun app => do
    match ← listJobs app.id with
    | .ok jobs => return .json 200 (Json.writeArray (jobs.map JobSummary.toJson))
    | .error r => return .refused r

/-- Stops a job. -/
def kill (appId jobId : String) : Plan Reply :=
  withApp appId fun _ => do
    match ← killJob jobId with
    | .ok () => return { status := 200 }
    | .error r => return .refused r

/-- How the log asked for is laid out. -/
def logEncoding (r : Request) : Log.Encoding := if r.accepts "text/event-stream" then .events else .raw

/-- Whether a log is to be tailed, by the values its query has for that. -/
def tails (values : List String) : Bool := values.any fun v => !v.isEmpty

/-- Opens a job's log. -/
def log (api : Api) (r : Request) (appId jobId : String) : Plan Reply :=
  let values := ((queryPairs r.target.query).filter (·.1 == "tail")).map (·.2)
  if 1 < values.length then .done (.plain 400 "Failed to deserialize query string: duplicate field `tail`")
  else withApp appId fun _ => do
    let encoding := logEncoding r
    match ← openLog api.logWait jobId (tails values) with
    | .ok l => return { status := 200, headers := [("content-type", Reply.logType encoding)], content := .log l encoding }
    | .error r => return .refused r

/-- The reply after which the connection carries a job's stream. -/
def switched (j : AttachedJob) : Reply :=
  { status := 101
    headers := [("connection", "upgrade"), ("upgrade", attachProtocol), ("content-type", attachMediaType)]
    content := .stream j }

/-- What is wrong with the body of a run request, or the job it asks for. Text after the job is not looked at. -/
def readNewJob (r : Request) : Except Reply NewJob :=
  if !MediaType.saysJson (r.headers.lines "content-type") then
    .error (.plain 415 "Expected request with `Content-Type: application/json`")
  else if longestBody < r.body.length then .error (.plain 413 "Failed to buffer the request body: length limit exceeded")
  else match NewJob.read r.body with
    | .ok (new, _) => .ok new
    | .error .mismatch => .error (.plain 422 "Failed to deserialize the JSON body into the target type")
    | .error _ => .error (.plain 400 "Failed to parse the request body as JSON")

/-- Runs a job. -/
def run (api : Api) (r : Request) (appId : String) : Plan Reply :=
  match readNewJob r with
  | .error reply => .done reply
  | .ok new =>
    let interactive := r.accepts attachMediaType
    if interactive && !r.canSwitch then .done (.refused .upgradeRequired)
    else withApp appId fun app => do
      match ← runJob api.select api.limits app new interactive with
      | .ok (.scheduled s) => return .json 200 s.toJson
      | .ok (.attached j) => return switched j
      | .error r => return .refused r

/-- The methods of a resource. -/
def methods : Resource → List String
  | .jobs _ => ["GET", "HEAD", "POST"]
  | .job _ _ => ["DELETE"]
  | .log _ _ => ["GET", "HEAD"]

/-- The header that names a resource's methods. -/
def allow (resource : Resource) : String × String := ("allow", String.intercalate "," (methods resource))

/-- Without the body, as a reply to `HEAD` is. A log that was opened is given up. -/
def withoutBody (reply : Reply) : Plan Reply :=
  let reply' := { reply with content := .bytes [] }
  match reply.content with
  | .log l _ => do
    Plan.call (.drop l.session)
    Plan.call (.close l.connection)
    return reply'
  | _ => .done reply'

/-- Goes on with the text of a segment of a path. -/
def withSegment (segment : List Char) (next : String → Plan Reply) : Plan Reply :=
  match segmentText? segment with
  | some text => next text
  | none => .done (.plain 400 "Invalid URL: Invalid UTF-8")

/-- Carries out a method of a resource that has it. -/
def perform (api : Api) (r : Request) : Resource → Plan Reply
  | .jobs app => withSegment app fun app => if r.method = "POST" then run api r app else list app
  | .job app id => withSegment app fun app => withSegment id fun id => kill app id
  | .log app id => withSegment app fun app => withSegment id fun id => log api r app id

/-- Answers what is asked of a resource. -/
def serve (api : Api) (r : Request) : Plan Reply :=
  match Resource.ofPath r.target.path with
  | none => .done { status := 404 }
  | some resource =>
    if (methods resource).contains r.method then
      if r.method = "HEAD" then (perform api r resource).bind withoutBody else perform api r resource
    else .done { status := 405, headers := [allow resource] }

/-- What tells a browser that pages of every origin may use the API. -/
def anyOrigin : String × String := ("access-control-allow-origin", "*")

/-- The reply to a browser that asks beforehand what it may send. -/
def preflight (r : Request) : Reply :=
  { status := 200
    headers := [("access-control-allow-methods", "*"), ("access-control-allow-headers", "*")] ++
      ((Resource.ofPath r.target.path).map allow).toList }

/-- Answers a request. The reply says whether the connection ends with it. -/
def answer (api : Api) (r : Request) : Plan Reply := do
  let reply ← if r.method = "OPTIONS" then Plan.done (preflight r) else serve api r
  let reply := { reply with headers := anyOrigin :: reply.headers }
  return if r.closes then reply.closing else reply

end Api

end JobPlane.Http

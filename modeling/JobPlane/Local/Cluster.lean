import JobPlane.Cluster.Basic
import JobPlane.Local.Worker
import JobPlane.Text.Quoted

/-!
# Clusters on one machine

A cluster of named hosts that run their jobs as processes or in containers. Jobs of one submission start in order, and the first
that does not start ends it. A connection can be closed, after which nothing more can be asked over it.
-/

namespace JobPlane

/-- A running process, and the job it runs for. -/
structure JobWorker where
  host : String
  job : String
  worker : Worker

/-- A submission that is held up: the job whose process has not been started, and the jobs that come after it. -/
structure HeldStart where
  host : String
  spec : JobSpec
  rest : List (String × JobSpec)

/-- A cluster on one machine. -/
structure LocalCluster where
  runtime : Runtime := .process
  sandbox : Sandbox := {}
  /-- How the process of a job is started. The system can refuse any, for reasons of its own. -/
  launch : Runtime → Sandbox → JobSpec → Except Program.SpawnError Worker := Worker.launch
  hosts : List LocalHost := []
  /-- The number of connections ever made. -/
  dialled : Nat := 0
  /-- The connections that are closed. -/
  closed : List Nat := []
  /-- The host of each session, and its place there. -/
  sessions : Array (String × Nat) := #[]
  /-- The latest comes first. -/
  workers : List JobWorker := []
  held : List HeldStart := []

namespace LocalCluster

/-- A host by its ID. -/
def host? (c : LocalCluster) (id : String) : Option LocalHost := c.hosts.find? (·.id == id)

/-- Puts a host in the place of the one with its ID. -/
def setHost (c : LocalCluster) (h : LocalHost) : LocalCluster :=
  { c with hosts := c.hosts.map fun g => if g.id == h.id then h else g }

/-! ## Hosts -/

/-- Adds a host. -/
def addHost (c : LocalCluster) (id : String) : Except ClusterError LocalCluster :=
  if !isHostId id then
    .error (.unavailable ("invalid host ID " ++ Text.quoted id ++ ": must be non-empty and contain no '-'"))
  else match c.host? id with
    | some _ => .error (.unavailable ("host " ++ id ++ " already registered"))
    | none => .ok { c with hosts := c.hosts ++ [{ id }] }

/-- Adds hosts in order, up to the first that cannot be added: the cluster then, and why not if there is one. -/
def addHosts (c : LocalCluster) : List String → LocalCluster × Except ClusterError Unit
  | [] => (c, .ok ())
  | id :: ids =>
    match c.addHost id with
    | .ok c => addHosts c ids
    | .error e => (c, .error e)

/-- The hosts, and the jobs that have not exited. -/
def snapshot (c : LocalCluster) : Snapshot := c.hosts.map fun h => (h.id, h.snapshot)

/-! ## Processes -/

/-- Changes a host by a job of it; nothing changes if that is not possible. -/
def change (c : LocalCluster) (host : String) (f : LocalHost → Option LocalHost) : LocalCluster :=
  match (c.host? host).bind f with
  | some h => c.setHost h
  | none => c

/-- A job writes chunks. -/
def emit (c : LocalCluster) (host job : String) (frames : List Frame) : LocalCluster :=
  frames.foldl (fun c f => c.change host (·.emit job f)) c

/-- A job's process exits. -/
def finish (c : LocalCluster) (host job : String) (code : Option Nat) : LocalCluster :=
  { (c.change host (·.closeOutput job)).change host (·.exit job code) with
    workers := c.workers.filter fun p => !(p.host == host && p.job == job) }

/-- The process that was started last for a job of some ID. -/
def worker? (c : LocalCluster) (job : String) : Option JobWorker := c.workers.find? (·.job == job)

/-- A process goes on as another one. -/
def setWorker (c : LocalCluster) (p : JobWorker) (worker : Worker) : LocalCluster :=
  { c with workers := c.workers.map fun q => if q.host == p.host && q.job == p.job then { q with worker } else q }

/-- What reading its standard input comes to for a job: the end, if it has none. -/
def readInput (n : Nat) (j : LocalJob) : Reading × LocalJob :=
  match j.input with
  | some pipe =>
    let (r, pipe) := pipe.read n
    (r, { j with input := some pipe })
  | none => (.eof, j)

/-- What a process does next, if it does something. -/
def work (c : LocalCluster) (p : JobWorker) : Option LocalCluster := do
  let h ← c.host? p.host
  let j ← h.job? p.job
  if j.state != .running then none
  else if j.stopping then some (c.finish p.host p.job none)
  else
    let (r, j') := readInput Worker.chunkSize j
    let deed ← p.worker.next r
    let c := c.setHost (h.mapJob p.job fun _ => j')
    match deed with
    | .write frames worker => some ((c.setWorker p worker).emit p.host p.job frames)
    | .exit frames code => some ((c.emit p.host p.job frames).finish p.host p.job code)

/-- An obedient process reads its input once, at most `n` bytes: what came, if something did. -/
def consume (c : LocalCluster) (p : JobWorker) (n : Nat) : Option (Bytes × LocalCluster) := do
  let h ← c.host? p.host
  match readInput n (← h.job? p.job) with
  | (.data bs, j) => some (bs, c.setHost (h.mapJob p.job fun _ => j))
  | _ => none

/-! ## What goes on by itself -/

/-- Lets the hosts move. -/
def settleHosts (c : LocalCluster) : LocalCluster := { c with hosts := c.hosts.map (·.settle) }

/-- Lets the hosts and the processes move in turn. `fuel` bounds the number of turns. -/
def settleOn : Nat → LocalCluster → LocalCluster
  | 0, c => c.settleHosts
  | fuel + 1, c =>
    let c := c.settleHosts
    match c.workers.findSome? c.work with
    | some c => settleOn fuel c
    | none => c

/-- The bytes on their way into the jobs. -/
def inputBytes (c : LocalCluster) : Nat :=
  total (fun h =>
    total (fun a => a.link.outgoing.buffer.length) h.attaches.toList +
    total (fun j => j.feed.held.length + (j.input.map fun p => p.buffer.length).getD 0) h.jobs) c.hosts

/-- Lets everything move that can. -/
def settle (c : LocalCluster) : LocalCluster := settleOn (c.inputBytes + 2 * c.workers.length + 1) c

/-! ## Submissions -/

/-- Starts the process of a job that was submitted. `hinder` is a failure from outside. -/
def start (c : LocalCluster) (host : String) (spec : JobSpec) (hinder : Option String) : Except ClusterError Unit × LocalCluster :=
  match c.host? host with
  | none => (.error (.hostNotFound host), c)
  | some h =>
    let spec := ((h.job? spec.id).map (·.spec)).getD spec
    let spawned : Except Program.SpawnError Worker := match hinder with
      | some m => .error (.outside m)
      | none => c.launch c.runtime c.sandbox spec
    match spawned with
    | .error e =>
      (.error (.unavailable ("failed to start job " ++ spec.id ++ ": " ++ e.message)), c.setHost (h.spawnFailed spec.id e.message))
    | .ok worker =>
      (.ok (), { c.setHost (h.spawned spec.id spec.config.attachStdin) with
        workers := { host, job := spec.id, worker } :: c.workers })

/-- Submits a job to its host. -/
def submit (c : LocalCluster) (host : String) (spec : JobSpec) : Except ClusterError LocalCluster :=
  match c.host? host with
  | none => .error (.hostNotFound host)
  | some h => (h.submit spec).map c.setHost

/-- Submits and starts jobs in order, up to the first that does not start. -/
def startAll (c : LocalCluster) : List (String × JobSpec) → Except ClusterError Unit × LocalCluster
  | [] => (.ok (), c)
  | (host, spec) :: rest =>
    match c.submit host spec with
    | .error e => (.error e, c)
    | .ok c =>
      match c.start host spec none with
      | (.ok (), c) => startAll c rest
      | (.error e, c) => (.error e, c)

/-- The jobs of a submission in order, each with its host, if all hosts are known. -/
def resolve (c : LocalCluster) (batches : List (String × List JobSpec)) : Except ClusterError (List (String × JobSpec)) :=
  match batches.find? fun b => (c.host? b.1).isNone with
  | some (host, _) => .error (.hostNotFound host)
  | none => .ok (batches.flatMap fun (host, specs) => specs.map fun s => (host, s))

/-- Submits jobs, each to its host. -/
def addJobs (c : LocalCluster) (batches : List (String × List JobSpec)) : Except ClusterError Unit × LocalCluster :=
  match c.resolve batches with
  | .error e => (.error e, c)
  | .ok jobs => c.startAll jobs

/-- Submits jobs, but holds the process of the first one up; the result is there at once if it comes to no process. -/
def addJobsHeld (c : LocalCluster) (batches : List (String × List JobSpec)) : Option (Except ClusterError Unit) × LocalCluster :=
  match c.resolve batches with
  | .error e => (some (.error e), c)
  | .ok [] => (some (.ok ()), c)
  | .ok ((host, spec) :: rest) =>
    match c.submit host spec with
    | .error e => (some (.error e), c)
    | .ok c => (none, { c with held := { host, spec, rest } :: c.held })

/-- Lets a submission go on that was held up at a job, or fail there for a reason from outside. -/
def release (c : LocalCluster) (job : String) (hinder : Option String) : Option (Except ClusterError Unit × LocalCluster) :=
  (c.held.find? (·.spec.id == job)).map fun held =>
    let c := { c with held := c.held.filter (·.spec.id != job) }
    match c.start held.host held.spec hinder with
    | (.ok (), c) => c.startAll held.rest
    | (.error e, c) => (.error e, c)

/-! ## Connections and sessions -/

/-- Asks something of a host over a connection. -/
def onHost {α : Type} (c : LocalCluster) (n : Connection) (f : LocalHost → Except ClusterError α) : Except ClusterError α :=
  if c.closed.contains n.serial then .error (.unavailable ("connection to host " ++ n.host ++ " is closed"))
  else match c.host? n.host with
    | some h => f h
    | none => .error (.hostNotFound n.host)

/-- The attach of a session. -/
def attachment? (c : LocalCluster) (s : Session) : Option Attachment := do
  let (host, i) ← c.sessions[s.serial]?
  (← c.host? host).attaches[i]?

/-- Attaches to a job. -/
def attach (c : LocalCluster) (n : Connection) (r : AttachRequest) (wait : Bool) : Except ClusterError Session × LocalCluster :=
  match c.onHost n fun h => (h.attach r wait).map fun (i, h') => (h, i, h') with
  | .error e => (.error e, c)
  | .ok (h, i, h') =>
    let pending := (h'.attaches[i]?).any (·.standing = .pending)
    (.ok { serial := c.sessions.size, pending, tty := h.hasTerminal r.job },
      { c.setHost h' with sessions := c.sessions.push (n.host, i) })

/-- How waiting for a session comes out, as things stand. -/
def awaited (c : LocalCluster) (s : Session) : Awaited :=
  match c.attachment? s with
  | none => .closed
  | some a =>
    match a.standing with
    | .joined _ => .ready
    | .refused reason => .refused reason
    | .pending => .timedOut
    | .withdrawn => .closed

instance : Cluster LocalCluster where
  hosts c := (.ok c.snapshot, c)
  dial host c :=
    match c.host? host with
    | some _ => (.ok { host, serial := c.dialled }, { c with dialled := c.dialled + 1 })
    | none => (.error (.hostNotFound host), c)
  addJobs batches c := c.addJobs batches
  attach n r wait c := c.attach n r wait
  detach n job c :=
    match c.onHost n fun h => .ok (h.detach job) with
    | .ok h => (.ok (), c.setHost h)
    | .error e => (.error e, c)
  stop n job c :=
    match c.onHost n fun h => h.stop job with
    | .ok h => (.ok (), c.setHost h)
    | .error e => (.error e, c)
  close n c := { c with closed := n.serial :: c.closed }
  awaitReady s _ c := (c.awaited s, c)
  elapse _ c := c.settle
  link s c := ((c.attachment? s).map (·.link)).getD default
  setLink s l c :=
    match c.sessions[s.serial]? with
    | some (host, i) => c.change host (·.step (.client i fun _ => l))
    | none => c
  settle c := c.settle
  bound c := total (fun h => total (fun j => j.log.bytes + 8 * j.log.chunks.size) h.jobs) c.hosts + c.inputBytes

end LocalCluster

end JobPlane

import JobPlane.Cluster.Basic
import JobPlane.Moves

/-!
# Scripted clusters

A cluster whose behaviour is laid down: which calls fail, which jobs run, and what comes of attaching to each of them and when. It
keeps a list of the calls made to it. Time is a number that moves only while something is waited for.
-/

namespace JobPlane.Scripted

/-- What comes of waiting for an attach to be confirmed. -/
inductive Confirmation
  | ready
  /-- Nothing, ever. -/
  | never
  /-- It is given up without a word. -/
  | gone
  | refused (reason : String)
  /-- There is nothing to wait for: the attach is served at once. -/
  | unasked
  deriving Repr, DecidableEq, Inhabited

/-- How a job behaves when attached to. -/
structure Script where
  /-- Sent at once to an attach that waits for a job that is not there yet. -/
  early : Bytes := []
  /-- Sent once the attach is confirmed. -/
  output : Bytes := []
  tty : Bool := false
  /-- The job keeps its end after its output, to be moved from outside. -/
  held : Bool := false
  /-- The job does not run yet. -/
  starting : Bool := false
  /-- Milliseconds until the attach is confirmed. -/
  delay : Nat := 0
  confirmation : Confirmation := .ready
  deriving Repr, DecidableEq, Inhabited

/-- What an attach waits for, on the job's side. -/
inductive Phase
  /-- Its job, which was not submitted yet. -/
  | unsubmitted
  /-- A moment, at which it is confirmed. -/
  | due (time : Nat)
  /-- Room for the rest of the output. -/
  | sending
  /-- Nothing: the job's end is moved from outside. -/
  | held
  /-- Nothing: the job's end is gone. -/
  | gone
  deriving Repr, DecidableEq

/-- An attach to a scripted job. -/
structure ScriptedAttach where
  job : String
  script : Script
  phase : Phase
  /-- The stream, as the client sees it. -/
  link : Link := .fresh 65536
  /-- What is still to be sent. -/
  output : Bytes := []
  /-- How waiting for it has come out. -/
  outcome : Option Awaited := none

namespace ScriptedAttach

/-- The job's end goes away. -/
def leave (a : ScriptedAttach) : ScriptedAttach := { a with phase := .gone, link := a.link.flip.drop.flip, output := [] }

/-- Begins to send the job's output. -/
def begin (a : ScriptedAttach) : ScriptedAttach := { a with phase := .sending, output := a.output ++ a.script.output }

/-- The moment has come at which an attach is confirmed. -/
def confirm (a : ScriptedAttach) : ScriptedAttach :=
  match a.script.confirmation with
  | .ready | .unasked => { a.begin with outcome := some .ready }
  | .never => { a with phase := .held }
  | .gone => { a.leave with outcome := some .closed }
  | .refused reason => { a.leave with outcome := some (.refused reason) }

/-- Whether an attach is confirmed at the latest at some time. -/
def isDueBy (a : ScriptedAttach) (time : Nat) : Bool :=
  match a.phase with
  | .due t => t ≤ time
  | _ => false

/-- What is done once nothing more is to be sent. -/
def sent (a : ScriptedAttach) : ScriptedAttach :=
  if a.phase = .sending then if a.script.held then { a with phase := .held } else a.leave else a

/-- Sends as much of the output as there is room for. What the client does not want any more is left out. -/
def send (a : ScriptedAttach) : ScriptedAttach :=
  if a.output.isEmpty then a.sent
  else match a.link.incoming.write a.output with
    | (.took n, incoming) =>
      let a := { a with link := { a.link with incoming }, output := a.output.drop n }
      if a.output.isEmpty then a.sent else a
    | (.failed _, _) => { a with output := [] }.sent
    | (.waiting, _) => a

end ScriptedAttach

/-- A call to a cluster. -/
inductive Call
  | listHosts
  | dial (host : String)
  | addJobs (batches : List (String × List JobSpec))
  | attach (host : String) (r : AttachRequest) (wait : Bool)
  | detach (host job : String)
  | stop (host job : String)
  | close (host : String)
  deriving DecidableEq

/-- The calls that fail, and how. -/
structure Failures where
  listHosts : Option ClusterError := none
  dial : Option ClusterError := none
  addJobs : Option ClusterError := none
  /-- Attaching to a job that runs. -/
  attach : Option ClusterError := none
  /-- Attaching with waiting. -/
  attachWait : Option ClusterError := none
  detach : Option ClusterError := none
  stop : Option ClusterError := none

end Scripted

open Scripted

/-- A scripted cluster. -/
structure ScriptedCluster where
  hosts : Snapshot := []
  /-- The jobs that can be attached to. -/
  scripts : List (String × Script) := []
  /-- How a job behaves that is attached to before it is submitted. -/
  fresh : Script := {}
  failures : Failures := {}
  /-- Milliseconds since the beginning. -/
  now : Nat := 0
  /-- The calls made, latest first. -/
  calls : List Call := []
  dialled : Nat := 0
  attaches : Array ScriptedAttach := #[]
  /-- The attaches whose job's end came to be moved from outside, latest first. -/
  handed : List Nat := []

namespace ScriptedCluster

/-- Takes note of a call. -/
def note (c : ScriptedCluster) (call : Call) : ScriptedCluster := { c with calls := call :: c.calls }

/-- Changes an attach. -/
def mapAttach (c : ScriptedCluster) (i : Nat) (f : ScriptedAttach → ScriptedAttach) : ScriptedCluster :=
  { c with attaches := c.attaches.modify i f }

/-- Changes the attaches that wait for a job to be submitted. -/
def mapUnsubmitted (c : ScriptedCluster) (job : String) (f : ScriptedAttach → ScriptedAttach) : ScriptedCluster :=
  { c with attaches := c.attaches.map fun a => if a.phase = .unsubmitted && a.job == job then f a else a }

/-- The number of attaches that wait for a job to be submitted. -/
def unsubmitted (c : ScriptedCluster) : Nat := c.attaches.countP fun a => a.phase = .unsubmitted

/-- The attach of a job whose end is moved from outside, the latest counting. -/
def held? (c : ScriptedCluster) (job : String) : Option Nat :=
  c.handed.find? fun i => (c.attaches[i]?).any fun a => a.phase = .held && a.job == job

/-- A call that may be made to fail. -/
def orFail {α : Type} (failure : Option ClusterError) (c : ScriptedCluster)
    (go : ScriptedCluster → Except ClusterError α × ScriptedCluster) : Except ClusterError α × ScriptedCluster :=
  match failure with
  | some e => (.error e, c)
  | none => go c

/-- Takes in a job for a host. -/
def submit (c : ScriptedCluster) (host : String) (job : JobSpec) : ScriptedCluster :=
  let hosts := c.hosts.map fun (key, h) => (key, if key == host then { h with jobs := h.jobs ++ [job] } else h)
  { c with hosts }.mapUnsubmitted job.id fun a => { a with phase := .due (c.now + a.script.delay) }

/-- Accepts an attach. -/
def accept (c : ScriptedCluster) (a : ScriptedAttach) (pending tty : Bool) : Except ClusterError Session × ScriptedCluster :=
  (.ok { serial := c.attaches.size, pending, tty }, { c with attaches := c.attaches.push a })

/-- Gives up the attaches that wait for a job to be submitted. -/
def withdraw (c : ScriptedCluster) (job : String) : ScriptedCluster :=
  c.mapUnsubmitted job fun a => { a.leave with outcome := some .closed }

/-- What an attach to a job comes to. Only one attach at a time waits for a job to be submitted, the latest, and what kind of
output the job will have is not known to it. -/
def attach (job : String) (wait : Bool) (c : ScriptedCluster) : Except ClusterError Session × ScriptedCluster :=
  match c.scripts.lookup job with
  | some s =>
    let a : ScriptedAttach := { job, script := s, phase := .due (c.now + s.delay) }
    if !s.starting || (wait && s.confirmation = .unasked) then c.accept a.begin false s.tty
    else if wait then c.accept a true s.tty
    else (.error .attachWouldWait, c)
  | none =>
    let a : ScriptedAttach := { job, script := c.fresh, phase := .unsubmitted, output := c.fresh.early }
    if !wait then (.error (.jobNotFound job), c)
    else if c.fresh.confirmation = .unasked then c.accept a.begin false false
    else (c.withdraw job).accept a true false

/-- Stops a job that a host lists. -/
def stop (host job : String) (c : ScriptedCluster) : Except ClusterError Unit × ScriptedCluster :=
  if c.hosts.any fun (key, h) => key == host && h.jobs.any (·.id == job) then
    (.ok (), { c with hosts := c.hosts.map fun (key, h) =>
      (key, if key == host then { h with jobs := h.jobs.filter (·.id != job) } else h) })
  else (.error (.jobNotFound job), c)

/-- Takes note of the job's ends that have come to be moved from outside. -/
def noteHeld (c : ScriptedCluster) : ScriptedCluster :=
  let come := (List.range c.attaches.size).filter fun i => (c.attaches[i]?).any (·.phase = .held) && !c.handed.contains i
  { c with handed := come.reverse ++ c.handed }

/-- Confirms what is due, and sends what there is room for. -/
def settle (c : ScriptedCluster) : ScriptedCluster :=
  noteHeld { c with attaches := c.attaches.map fun a => if a.isDueBy c.now then a.confirm.send else a.send }

/-- Lets milliseconds pass. -/
def elapse (ms : Nat) (c : ScriptedCluster) : ScriptedCluster := settle { c with now := c.now + ms }

/-- Waits for a session to be confirmed. What is due only when the time allowed has passed comes too late. -/
def awaitReady (s : Session) (ms : Nat) (c : ScriptedCluster) : Awaited × ScriptedCluster :=
  match c.attaches[s.serial]? with
  | none => (.closed, c)
  | some a =>
    match a.outcome, a.phase with
    | some r, _ => (r, c)
    | none, .due t =>
      if t < c.now + ms then
        let c := c.elapse (t - c.now)
        match (c.attaches[s.serial]?).bind (·.outcome) with
        | some r => (r, c)
        | none => (.timedOut, c.elapse (c.now + ms - t))
      else (.timedOut, c.elapse ms)
    | none, _ => (.timedOut, c.elapse ms)

instance : Cluster ScriptedCluster where
  hosts c := orFail c.failures.listHosts (c.note .listHosts) fun c => (.ok c.hosts, c)
  dial host c := orFail c.failures.dial (c.note (.dial host)) fun c =>
    if c.hosts.any (·.1 == host) then (.ok { host, serial := c.dialled }, { c with dialled := c.dialled + 1 })
    else (.error (.hostNotFound host), c)
  addJobs batches c := orFail c.failures.addJobs (c.note (.addJobs batches)) fun c =>
    (.ok (), batches.foldl (fun c (host, jobs) => jobs.foldl (fun c j => c.submit host j) c) c)
  attach n r wait c :=
    orFail (if wait then c.failures.attachWait else c.failures.attach) (c.note (.attach n.host r wait)) (attach r.job wait)
  detach n job c := orFail c.failures.detach (c.note (.detach n.host job)) fun c => (.ok (), c.withdraw job)
  stop n job c := orFail c.failures.stop (c.note (.stop n.host job)) (stop n.host job)
  close n c := c.note (.close n.host)
  awaitReady s ms c := c.awaitReady s ms
  elapse ms c := c.elapse ms
  link s c := ((c.attaches[s.serial]?).map (·.link)).getD default
  setLink s l c := c.mapAttach s.serial fun a => { a with link := l }
  settle c := c.settle
  bound c := total (fun a => a.output.length + a.script.output.length + 1) c.attaches.toList

end ScriptedCluster

end JobPlane

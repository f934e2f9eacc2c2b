import JobPlane.Cluster.Error
import JobPlane.Job.Record
import JobPlane.Local.OutputLog
import JobPlane.Moves
import JobPlane.Placement
import JobPlane.Stream.Copy
import JobPlane.Stream.Link

/-!
# Hosts

A host runs jobs and joins attaches to them. A job that is submitted starts, and once its process runs the attaches that were
waiting for it are joined to its output, the first that asked for it also to its input. If the process does not start, the job is
forgotten and they are told. A job that has exited stays known for the sake of its log. What the parts of a host do on their own is
cut into moves, and so is everything that reaches it from outside.
-/

namespace JobPlane

/-- Where a job is in its life. -/
inductive JobState
  | starting
  | running
  /-- It has exited, with a code unless it was killed. -/
  | exited (code : Option Nat)
  deriving Repr, DecidableEq, Inhabited

/-- Whether a job has exited. -/
def JobState.isExited : JobState → Bool
  | exited _ => true
  | _ => false

/-- A job on its host. -/
structure LocalJob where
  spec : JobSpec
  state : JobState := .starting
  log : OutputLog := {}
  /-- It was told to stop. -/
  stopping : Bool := false
  /-- Its standard input, if it has one. -/
  input : Option Pipe := none
  /-- The attach whose input goes to the job. -/
  owner : Option Nat := none
  /-- Carries the owner's input to the job. -/
  feed : Copy := {}

/-- How an attach stands with its host. -/
inductive Standing
  /-- Its job has not started. -/
  | pending
  /-- It was given up before its job ran. -/
  | withdrawn
  /-- Its job did not start. -/
  | refused (reason : String)
  /-- It is joined to its job's output. -/
  | joined (s : Server)
  deriving Repr, DecidableEq

/-- An attach to a job of a host. -/
structure Attachment where
  request : AttachRequest
  standing : Standing := .pending
  /-- The connection, as the client sees it. -/
  link : Link := .fresh 65536
  /-- The host's end is still there. -/
  present : Bool := true

namespace Attachment

/-- Whether an attach waits for a job. -/
def isPendingFor (a : Attachment) (job : String) : Bool := a.standing = .pending && a.request.job == job

/-- The host's end goes away. -/
def part (a : Attachment) : Attachment := { a with link := a.link.flip.drop.flip, present := false }

/-- The host gives an attach up. -/
def giveUp (a : Attachment) (standing : Standing) : Attachment := { a.part with standing }

end Attachment

/-- A host. -/
structure LocalHost where
  id : String
  jobs : List LocalJob := []
  /-- All attaches that were ever accepted, in order. -/
  attaches : Array Attachment := #[]

namespace LocalHost

/-- A job by its ID. -/
def job? (h : LocalHost) (id : String) : Option LocalJob := h.jobs.find? (·.spec.id == id)

/-- Changes a job. -/
def mapJob (h : LocalHost) (id : String) (f : LocalJob → LocalJob) : LocalHost :=
  { h with jobs := h.jobs.map fun j => if j.spec.id == id then f j else j }

/-- The host and the jobs on it that have not exited, in the order of their IDs. -/
def snapshot (h : LocalHost) : HostSnapshot :=
  { id := h.id
    jobs := ((h.jobs.filter fun j => !j.state.isExited).map (·.spec)).mergeSort fun a b => decide (a.id ≤ b.id) }

/-! ## Submitting -/

/-- The places of the attaches that wait for a job, earliest first. -/
def pendingFor (h : LocalHost) (job : String) : List Nat :=
  (List.range h.attaches.size).filter fun i => (h.attaches[i]?).any (·.isPendingFor job)

/-- The earliest attach waiting for a job that asks for its input. -/
def earliestInput (h : LocalHost) (job : String) : Option Nat :=
  (h.pendingFor job).find? fun i => (h.attaches[i]?).any (·.request.flags.stdin)

/-- The environment of a job with the size of a terminal, unless it is unknown. -/
def withSize (r : AttachRequest) (env : List String) : List String :=
  if 0 < r.height.toNat ∧ 0 < r.width.toNat then
    env ++ ["LINES=" ++ toString r.height.toNat, "COLUMNS=" ++ toString r.width.toNat]
  else env

/-- A job as it will run: one with a terminal is told the size that the earliest attach waiting for its input gave. -/
def sized (h : LocalHost) (spec : JobSpec) : JobSpec :=
  if spec.config.tty then
    match (h.earliestInput spec.id).bind (h.attaches[·]?) with
    | some a => { spec with config := { spec.config with env := withSize a.request spec.config.env } }
    | none => spec
  else spec

/-- Accepts a job, which then starts. -/
def submit (h : LocalHost) (spec : JobSpec) : Except ClusterError LocalHost :=
  match h.job? spec.id with
  | some _ => .error (.unavailable ("job " ++ spec.id ++ " already exists on host " ++ h.id))
  | none => .ok { h with jobs := h.jobs ++ [{ spec := h.sized spec }] }

/-- Changes the attaches that wait for a job. -/
def mapPending (h : LocalHost) (job : String) (f : Attachment → Attachment) : LocalHost :=
  { h with attaches := h.attaches.map fun a => if a.isPendingFor job then f a else a }

/-- The process of a starting job runs, with or without a standard input: the attaches waiting for it are joined. An input that no
attach has asked for ends at once. -/
def spawned (h : LocalHost) (id : String) (hasInput : Bool) : LocalHost :=
  match h.job? id with
  | none => h
  | some j =>
    let owner := if hasInput then h.earliestInput id else none
    let pipe : Pipe := { capacity := 65536, closed := owner.isNone }
    (h.mapJob id fun j => { j with state := .running, owner, input := if hasInput then some pipe else none }).mapPending id
      fun a => { a with standing := .joined { flags := a.request.flags, tty := j.spec.config.tty } }

/-- The process of a starting job did not start: the job is forgotten, and the attaches waiting for it are told. -/
def spawnFailed (h : LocalHost) (id reason : String) : LocalHost :=
  { h with jobs := h.jobs.filter (·.spec.id != id) }.mapPending id (·.giveUp (.refused ("job failed to start: " ++ reason)))

/-! ## Attaching -/

/-- Accepts an attach. -/
def accept (h : LocalHost) (a : Attachment) : Nat × LocalHost := (h.attaches.size, { h with attaches := h.attaches.push a })

/-- What an attach to a job comes to: its place among the attaches, and the host after it. -/
def attach (h : LocalHost) (r : AttachRequest) (wait : Bool) : Except ClusterError (Nat × LocalHost) :=
  match h.job? r.job with
  | none => if wait then .ok (h.accept { request := r }) else .error (.jobNotFound r.job)
  | some j =>
    if j.state = .starting then
      if wait then .ok (h.accept { request := r }) else .error .attachWouldWait
    else .ok (h.accept { request := r, standing := .joined { flags := r.flags, tty := j.spec.config.tty } })

/-- Whether a job has a terminal; one that is not there has none. -/
def hasTerminal (h : LocalHost) (job : String) : Bool := (h.job? job).any (·.spec.config.tty)

/-- Gives up all attaches that wait for a job. -/
def detach (h : LocalHost) (job : String) : LocalHost := h.mapPending job (·.giveUp .withdrawn)

/-! ## Running and stopping -/

/-- Tells a job to stop. -/
def stop (h : LocalHost) (id : String) : Except ClusterError LocalHost :=
  match h.job? id with
  | none => .error (.jobNotFound id)
  | some j => .ok (if j.state.isExited then h else h.mapJob id fun j => { j with stopping := true })

/-- A running job writes a chunk. -/
def emit (h : LocalHost) (id : String) (c : Frame) : Option LocalHost :=
  match h.job? id with
  | some j => if j.state = .running && !j.log.closed then some (h.mapJob id fun j => { j with log := j.log.push c }) else none
  | none => none

/-- The process of a running job has ended: it writes and reads nothing more. -/
def closeOutput (h : LocalHost) (id : String) : Option LocalHost :=
  match h.job? id with
  | some j =>
    if j.state = .running && !j.log.closed then
      some (h.mapJob id fun j => { j with log := j.log.close, input := j.input.map Pipe.abandon })
    else none
  | none => none

/-- A job whose output is complete is taken as exited. -/
def exit (h : LocalHost) (id : String) (code : Option Nat) : Option LocalHost :=
  match h.job? id with
  | some j =>
    if j.state = .running && j.log.closed then some (h.mapJob id fun j => { j with state := .exited code }) else none
  | none => none

/-! ## What goes on by itself -/

/-- Serves an attach a step further. -/
def serve (h : LocalHost) (i : Nat) : Option LocalHost := do
  let a ← h.attaches[i]?
  let j ← h.job? a.request.job
  match a.standing with
  | .joined s =>
    let (s, incoming) ← s.step j.log a.link.incoming
    some { h with attaches := h.attaches.setIfInBounds i { a with standing := .joined s, link := { a.link with incoming } } }
  | _ => none

/-- Whether a job's input still comes from an attach. -/
def feeds (j : LocalJob) (i : Nat) : Bool := j.owner = some i && j.feed.result.isNone

/-- The host's end of an attach goes away once the attach is served and nothing is read from it. -/
def part (h : LocalHost) (i : Nat) : Option LocalHost := do
  let a ← h.attaches[i]?
  match a.standing with
  | .joined s =>
    if a.present && s.isOver && !(h.job? a.request.job).any (feeds · i) then
      some { h with attaches := h.attaches.setIfInBounds i a.part }
    else none
  | _ => none

/-- Carries input to a job a step further. Its input ends when the copy does. -/
def carry (h : LocalHost) (id : String) (m : Copy.Move) : Option LocalHost := do
  let j ← h.job? id
  let i ← j.owner
  let a ← h.attaches[i]?
  let pipe ← j.input
  let (feed, outgoing, pipe) ← j.feed.step a.link.outgoing pipe m
  let pipe := if feed.result.isSome then pipe.close else pipe
  some { h.mapJob id fun j => { j with feed, input := some pipe } with
    attaches := h.attaches.setIfInBounds i { a with link := { a.link with outgoing } } }

/-- A move of a host. -/
inductive Move
  | submit (spec : JobSpec)
  | spawned (id : String) (hasInput : Bool)
  | spawnFailed (id reason : String)
  | attach (r : AttachRequest) (wait : Bool)
  | detach (job : String)
  | stop (id : String)
  | emit (id : String) (c : Frame)
  | closeOutput (id : String)
  | exit (id : String) (code : Option Nat)
  | serve (i : Nat)
  | part (i : Nat)
  | carry (id : String) (m : Copy.Move)
  /-- The client at an attach does something with its end. -/
  | client (i : Nat) (f : Link → Link)

/-- Whether a job is starting. -/
def isStarting (h : LocalHost) (id : String) : Bool := (h.job? id).any (·.state = .starting)

/-- Makes a move, where it is possible. A process starts, or fails to, only for a job that is starting. -/
def step (h : LocalHost) : Move → Option LocalHost
  | .submit spec => (h.submit spec).toOption
  | .spawned id hasInput => if h.isStarting id then some (h.spawned id hasInput) else none
  | .spawnFailed id reason => if h.isStarting id then some (h.spawnFailed id reason) else none
  | .attach r wait => (h.attach r wait).toOption.map (·.2)
  | .detach job => some (h.detach job)
  | .stop id => (h.stop id).toOption
  | .emit id c => h.emit id c
  | .closeOutput id => h.closeOutput id
  | .exit id code => h.exit id code
  | .serve i => h.serve i
  | .part i => h.part i
  | .carry id m => h.carry id m
  | .client i f => (h.attaches[i]?).map fun a => { h with attaches := h.attaches.setIfInBounds i { a with link := f a.link } }

/-- The moves that a host makes by itself. -/
def ownMoves (h : LocalHost) : List Move :=
  (List.range h.attaches.size).flatMap (fun i => [.serve i, .part i]) ++
  h.jobs.flatMap fun j => [.carry j.spec.id .write, .carry j.spec.id .read, .carry j.spec.id .conclude]

/-- More than the moves that a host can still make by itself. -/
def ownBound (h : LocalHost) : Nat :=
  total (fun a =>
    let log := ((h.job? a.request.job).map (·.log)).getD {}
    log.bytes + 16 * log.chunks.size + 2 * a.link.outgoing.buffer.length + 16) h.attaches.toList +
  total (fun j => 2 * j.feed.held.length + 8) h.jobs

/-- Lets a host do what it does by itself until it is at rest. -/
def settle (h : LocalHost) : LocalHost := JobPlane.settle step h.ownMoves h.ownBound h

end LocalHost

end JobPlane

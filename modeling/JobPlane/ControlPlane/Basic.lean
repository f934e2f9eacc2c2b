import JobPlane.ControlPlane.LogCopy
import JobPlane.ControlPlane.Tunnel
import JobPlane.Http.Api

/-!
# The control plane at work

A control plane over some cluster: its catalog, the IDs it gives to jobs, and the logs and tunnels that go on after the request
they came from was answered.
-/

namespace JobPlane

/-- A control plane at work. -/
structure ControlPlane (κ : Type) where
  cluster : κ
  catalog : Catalog := {}
  api : Http.Api
  /-- The IDs it gives to jobs, in order. -/
  ids : Nat → String
  /-- The number of IDs given. -/
  issued : Nat := 0
  /-- The logs that were ever copied. -/
  logs : Array LogCopy := #[]
  /-- The tunnels that were ever opened. -/
  tunnels : Array Tunnel := #[]

namespace ControlPlane

variable {κ : Type} [Cluster κ]

/-- Passes an ask on to the cluster. -/
def onCluster {α : Type} (p : ControlPlane κ) (f : κ → α × κ) : α × ControlPlane κ :=
  let (a, cluster) := f p.cluster
  (a, { p with cluster })

/-- Changes the cluster. -/
def mapCluster (p : ControlPlane κ) (f : κ → κ) : ControlPlane κ := { p with cluster := f p.cluster }

/-- Answers what a plan asks. -/
def answer : (q : Ask) → ControlPlane κ → q.Answer × ControlPlane κ
  | .app id, p => (p.catalog.app id, p)
  | .release id, p => (p.catalog.release id, p)
  | .artifact id, p => (p.catalog.artifact id, p)
  | .freshId, p => (p.ids p.issued, { p with issued := p.issued + 1 })
  | .listHosts, p => p.onCluster Cluster.hosts
  | .dial host, p => p.onCluster (Cluster.dial host)
  | .addJobs batches, p => p.onCluster (Cluster.addJobs batches)
  | .attach c r wait, p => p.onCluster (Cluster.attach c r wait)
  | .detach c job, p => p.onCluster (Cluster.detach c job)
  | .stop c job, p => p.onCluster (Cluster.stop c job)
  | .close c, p => ((), p.mapCluster (Cluster.close c))
  | .awaitReady s ms, p => p.onCluster (Cluster.awaitReady s ms)
  | .drain s ms, p => p.onCluster (Cluster.drain s ms)
  | .drop s, p => ((), p.mapCluster (Cluster.drop s))

/-- Carries out a plan. -/
def perform {α : Type} (p : ControlPlane κ) (plan : Plan α) : α × ControlPlane κ := plan.run answer p

/-! ## What goes on by itself -/

/-- A move of a log or a tunnel. -/
inductive Move
  | log (i : Nat) (m : LogCopy.Move)
  | tunnel (i : Nat) (m : Tunnel.Move)
  deriving Repr, DecidableEq

/-- Makes a move, where it is possible. -/
def step (p : ControlPlane κ) : Move → Option (ControlPlane κ)
  | .log i m => do
    let (l, cluster) ← (← p.logs[i]?).step p.cluster m
    some { p with logs := p.logs.setIfInBounds i l, cluster }
  | .tunnel i m => do
    let (t, cluster) ← (← p.tunnels[i]?).step p.cluster m
    some { p with tunnels := p.tunnels.setIfInBounds i t, cluster }

/-- The moves of all parts, in the order in which they take turns. A log or tunnel that has closed its connection is over. -/
def turns (p : ControlPlane κ) : List (List Move) :=
  (List.range p.logs.size).flatMap (fun i =>
    if (p.logs[i]?).all (·.closed) then [] else LogCopy.turns.map fun g => g.map (.log i)) ++
  (List.range p.tunnels.size).flatMap fun i =>
    if (p.tunnels[i]?).all (·.closed) then [] else [Tunnel.moves.map (.tunnel i)]

/-- More than the moves that can be made before something comes from outside. -/
def bound (p : ControlPlane κ) : Nat :=
  let logs := total (fun l => (Cluster.link l.log.session p.cluster).incoming.buffer.length + 262144) p.logs.toList
  let tunnels := total (fun t =>
    t.client.incoming.buffer.length + (Cluster.link t.job.session p.cluster).incoming.buffer.length + 32768) p.tunnels.toList
  64 * (Cluster.bound p.cluster + logs + tunnels) + 64

/-- Lets every part take its turn, over and over, until none can move. `fuel` bounds the number of rounds, and of moves in
a turn. -/
def settleOn : Nat → ControlPlane κ → ControlPlane κ
  | 0, p => p
  | fuel + 1, p =>
    let p := p.mapCluster Cluster.settle
    let (moved, p) := p.turns.foldl (fun (moved, p) g =>
      let (m, p) := settled step g fuel p
      (moved || m, p)) (false, p)
    if moved then settleOn fuel p else p

/-- Lets everything move that can. -/
def settle (p : ControlPlane κ) : ControlPlane κ := settleOn p.bound p

/-! ## Logs and tunnels -/

/-- Begins to copy a log. -/
def copyLog (p : ControlPlane κ) (log : OpenLog) (encoding : Log.Encoding) (outlet : Outlet) : Nat × ControlPlane κ :=
  (p.logs.size, { p with logs := p.logs.push (.start log encoding outlet) })

/-- Reads from a log. -/
def readLog (i n : Nat) (p : ControlPlane κ) : Reading × ControlPlane κ :=
  match p.logs[i]? with
  | some l =>
    let (r, l) := l.read n
    (r, { p with logs := p.logs.setIfInBounds i l })
  | none => (.eof, p)

/-- The reader of a log goes away. -/
def dropLog (i : Nat) (p : ControlPlane κ) : ControlPlane κ :=
  match p.logs[i]? with
  | some l =>
    let (l, cluster) := l.abandon p.cluster
    { p with logs := p.logs.setIfInBounds i l, cluster }
  | none => p

/-- Opens a tunnel to a job. -/
def openTunnel (p : ControlPlane κ) (job : AttachedJob) : Nat × ControlPlane κ :=
  (p.tunnels.size, { p with tunnels := p.tunnels.push { job } })

/-- The client's end of a tunnel. -/
def clientEnd (i : Nat) (p : ControlPlane κ) : Link := ((p.tunnels[i]?).map (·.client.flip)).getD default

/-- Replaces the client's end of a tunnel. -/
def setClientEnd (i : Nat) (l : Link) (p : ControlPlane κ) : ControlPlane κ :=
  { p with tunnels := p.tunnels.modify i fun t => { t with client := l.flip } }

/-- Gives up an interactive job that is not used any more: its stream is dropped and the connection to its host is closed. -/
def dropAttached (j : AttachedJob) (p : ControlPlane κ) : ControlPlane κ :=
  p.mapCluster fun c => Cluster.close j.connection (Cluster.drop j.session c)

/-- Answers a request over HTTP. -/
def serve (p : ControlPlane κ) (r : Http.Request) : Http.Reply × ControlPlane κ := p.perform (p.api.answer r)

end ControlPlane

end JobPlane

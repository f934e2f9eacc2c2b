import JobPlane.ControlPlane.Basic
import JobPlane.Stream.LinkEnd

/-!
# What clients hold

The streams that the clients of a control plane hold, each under a label: sessions, logs on their way, tunnels, and bodies of
replies. A stream that is let go is given up with everything that was kept for it.
-/

namespace JobPlane

/-- A stream that a client holds. -/
inductive Holding
  /-- A session, the interactive job it belongs to if there is one, and whether it can still be waited for. -/
  | session (s : Session) (job : Option AttachedJob) (awaitable : Bool)
  /-- A log, and whether it is made of events. -/
  | log (i : Nat) (events : Bool)
  | tunnel (i : Nat)
  /-- What is left of a body that was there at once, and whether it is made of events. -/
  | body (rest : Bytes) (events : Bool)

/-- A control plane, and what its clients hold. -/
structure Holdings (κ : Type) where
  plane : ControlPlane κ
  held : List (String × Holding) := []
  /-- The connections to hosts that clients hold. -/
  connections : List (String × Connection) := []

namespace Holdings

variable {κ : Type} [Cluster κ]

/-- Lets everything move that can. -/
def settle (d : Holdings κ) : Holdings κ := { d with plane := d.plane.settle }

/-- Changes the control plane, and lets everything move. -/
def withPlane (d : Holdings κ) (plane : ControlPlane κ) : Holdings κ := { d with plane }.settle

/-- Changes the cluster, and lets everything move. -/
def withCluster (d : Holdings κ) (cluster : κ) : Holdings κ := d.withPlane { d.plane with cluster }

/-- Carries out a plan. -/
def perform {α : Type} (d : Holdings κ) (plan : Plan α) : α × Holdings κ :=
  let (a, plane) := d.plane.perform plan
  (a, { d with plane })

/-- What is held under a label. -/
def get? (d : Holdings κ) (label : String) : Option Holding := d.held.lookup label

/-- No longer holds anything under a label. -/
def forget (d : Holdings κ) (label : String) : Holdings κ := { d with held := d.held.filter (·.1 != label) }

/-- Gives up what is held under a label. -/
def drop (d : Holdings κ) (label : String) : Holdings κ :=
  let plane := match d.get? label with
    | some (.session s none _) => d.plane.mapCluster (Cluster.drop s)
    | some (.session _ (some j) _) => d.plane.dropAttached j
    | some (.log i _) => d.plane.dropLog i
    | some (.tunnel i) => d.plane.setClientEnd i (d.plane.clientEnd i).drop
    | _ => d.plane
  { d with plane }.forget label

/-- Holds something under a label, in place of what was held there, and lets everything move. -/
def keep (d : Holdings κ) (label : String) (h : Holding) : Holdings κ :=
  let d := (d.drop label).settle
  { d with held := (label, h) :: d.held }

/-- Goes on holding something else under a label. -/
def replace (d : Holdings κ) (label : String) (h : Holding) : Holdings κ :=
  { d with held := d.held.map fun (l, old) => (l, if l == label then h else old) }

/-- The near end of a session, as a part of what is held. -/
def sessionEnd (s : Session) : LinkEnd (Holdings κ) where
  get d := Cluster.link s d.plane.cluster
  set l d := { d with plane := d.plane.mapCluster (Cluster.setLink s l) }
  settle := settle

/-- The client's end of a tunnel, as a part of what is held. -/
def tunnelEnd (i : Nat) : LinkEnd (Holdings κ) where
  get d := d.plane.clientEnd i
  set l d := { d with plane := d.plane.setClientEnd i l }
  settle := settle

/-- The two-way stream held under a label. -/
def linkEnd? (d : Holdings κ) (label : String) : Option (LinkEnd (Holdings κ)) :=
  match d.get? label with
  | some (.session s _ _) => some (sessionEnd s)
  | some (.tunnel i) => some (tunnelEnd i)
  | _ => none

/-- Reads all that comes from a log. -/
def readLog (i : Nat) (d : Holdings κ) : Bytes × Standstill × Holdings κ :=
  let (bs, stands, plane) := readToQuiet (ControlPlane.readLog i LinkEnd.chunk) ControlPlane.settle d.plane.bound #[] d.plane
  (bs, stands, d.withPlane plane)

/-- Reads all that comes from the stream held under a label: whether it is made of events, what was read, and how it stands. -/
def read (d : Holdings κ) (label : String) : Option (Bool × Bytes × Standstill × Holdings κ) :=
  match d.get? label with
  | some (.log i events) => some (events, d.readLog i)
  | some (.body rest events) => some (events, rest, .ended, d.replace label (.body [] events))
  | some (.session s _ _) => some (false, (sessionEnd s).readAll d.plane.bound d)
  | some (.tunnel i) => some (false, (tunnelEnd i).readAll d.plane.bound d)
  | none => none

/-- Waits for the session held under a label, which can be done once: how that comes out, or nothing if it was done before. -/
def awaitReady (d : Holdings κ) (label : String) : Option (Option Awaited × Holdings κ) :=
  match d.get? label with
  | some (.session s job true) =>
    let (r, d) := d.perform (Plan.call (.awaitReady s 0))
    some (some r, d.replace label (.session s job false))
  | some (.session _ _ false) => some (none, d)
  | _ => none

/-- Drains the session held under a label, and gives it up. -/
def drain (d : Holdings κ) (label : String) (ms : Nat) : Option (Nat × Holdings κ) :=
  match d.get? label with
  | some (.session s job _) =>
    let (n, d) := d.perform (Plan.call (.drain s ms))
    let plane := match job with
      | some j => d.plane.mapCluster (Cluster.close j.connection)
      | none => d.plane
    some (n, (d.withPlane plane).forget label)
  | _ => none

/-- Begins to copy a log. -/
def copyLog (d : Holdings κ) (log : OpenLog) (encoding : Log.Encoding) (outlet : Outlet) : Nat × Holdings κ :=
  let (i, plane) := d.plane.copyLog log encoding outlet
  (i, d.withPlane plane)

/-- Answers a request over HTTP. A reply whose body or stream is held under the label brings none; one whose body is not held brings
it all. -/
def serve (d : Holdings κ) (r : Http.Request) (label : Option String) : Http.Reply × Option Bytes × Holdings κ :=
  let (reply, plane) := d.plane.serve r
  let d := d.withPlane plane
  let keepAs := if r.live || reply.status != 200 then none else label
  match reply.content, keepAs with
  | .bytes bs, none => (reply, some bs, d)
  | .bytes bs, some label => (reply, none, d.keep label (.body bs reply.isEvents))
  | .log l encoding, keepAs =>
    let (i, d) := d.copyLog l encoding (.reader { capacity := 65536 })
    match keepAs with
    | some label => (reply, none, d.keep label (.log i reply.isEvents))
    | none =>
      let (bs, _, d) := d.readLog i
      (reply, some bs, d)
  | .stream j, _ =>
    let (i, plane) := d.plane.openTunnel j
    (reply, none, (d.withPlane plane).keep (label.getD "") (.tunnel i))

end Holdings

end JobPlane

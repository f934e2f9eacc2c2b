import JobPlane.Cluster.Basic
import JobPlane.Request.Run
import JobPlane.Stream.Proxy

/-!
# Tunnels

A client's connection that has gone over to the stream of an interactive job. A bridge joins the two, and the connection to the
host is kept until the bridge is over.
-/

namespace JobPlane

/-- A connection that carries a job's stream. -/
structure Tunnel where
  job : AttachedJob
  proxy : Proxy := {}
  /-- The client's connection, seen from the bridge. -/
  client : Link := .fresh 65536
  /-- The connection to the host was closed. -/
  closed : Bool := false

namespace Tunnel

/-- One move of a tunnel. -/
inductive Move
  | bridge (m : Proxy.Move)
  /-- The bridge is over, and the connection to the host is closed. -/
  | close
  deriving Repr, DecidableEq

variable {κ : Type} [Cluster κ]

/-- Makes a move, where it is possible. -/
def step (t : Tunnel) (c : κ) : Move → Option (Tunnel × κ)
  | .bridge m =>
    (t.proxy.step t.client (Cluster.link t.job.session c) m).map fun (proxy, client, link) =>
      ({ t with proxy, client }, Cluster.setLink t.job.session link c)
  | .close =>
    if t.proxy.isOver && !t.closed then some ({ t with closed := true }, Cluster.close t.job.connection c) else none

/-- All moves. -/
def moves : List Move := Proxy.moves.map .bridge ++ [.close]

end Tunnel

end JobPlane

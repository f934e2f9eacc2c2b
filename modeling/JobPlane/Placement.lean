import JobPlane.Job.Record
import JobPlane.Refusal

/-!
# Choosing a host

A new job runs on a host chosen from a snapshot of the cluster: any host, or the one that runs the fewest jobs.
-/

namespace JobPlane

/-- A host and the jobs running on it. -/
structure HostSnapshot where
  id : String := ""
  jobs : List JobSpec := []
  deriving DecidableEq, Inhabited

/-- The hosts of a cluster, each under its key. -/
abbrev Snapshot := List (String × HostSnapshot)

namespace Snapshot

/-- Puts in a host, in place of one under the same key. -/
def insert (s : Snapshot) (key : String) (h : HostSnapshot) : Snapshot :=
  if s.any (·.1 == key) then s.map fun e => if e.1 == key then (key, h) else e else s ++ [(key, h)]

/-- The snapshot of a list of hosts, of which later ones take the place of earlier ones under their key. -/
def ofList (hs : List (String × HostSnapshot)) : Snapshot := hs.foldl (fun s (k, h) => insert s k h) []

end Snapshot

/-- A way of choosing a host. -/
abbrev Selector := Snapshot → Except Refusal String

namespace Selector

/-- Whether a host is to be preferred to another: it has fewer jobs, or as many and the smaller ID. -/
def preferred (a b : HostSnapshot) : Bool :=
  a.jobs.length < b.jobs.length || (a.jobs.length == b.jobs.length && a.id < b.id)

/-- The host with the fewest jobs, of several the one with the smallest ID. -/
def leastLoaded : Selector := fun hosts =>
  match hosts.map (·.2) with
  | [] => .error .noHosts
  | h :: hs => .ok (hs.foldl (fun best h => if preferred h best then h else best) h).id

/-- Any host: the one that `pick` names among so many. -/
def random (pick : Nat → Nat) : Selector := fun hosts =>
  match hosts[pick hosts.length % hosts.length]? with
  | some (key, _) => .ok key
  | none => .error .noHosts

end Selector

end JobPlane

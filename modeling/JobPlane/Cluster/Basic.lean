import JobPlane.Plan
import JobPlane.Stream.Drain
import JobPlane.Stream.Link

/-!
# Clusters

What the control plane asks of a cluster of hosts: what runs, jobs to run, and attaches to jobs over connections to their hosts.
An attach gives a session, whose stream is read and written at its near end while the cluster moves the other one.
-/

namespace JobPlane

/-- A cluster of hosts. -/
class Cluster (κ : Type) where
  /-- The hosts, and what runs on them. -/
  hosts : κ → Except ClusterError Snapshot × κ
  /-- Connects to a host. -/
  dial : String → κ → Except ClusterError Connection × κ
  /-- Submits jobs, each to its host. -/
  addJobs : List (String × List JobSpec) → κ → Except ClusterError Unit × κ
  /-- Attaches to a job; with `wait` also to one that does not run yet. -/
  attach : Connection → AttachRequest → Bool → κ → Except ClusterError Session × κ
  /-- Gives up the attaches that wait for a job. -/
  detach : Connection → String → κ → Except ClusterError Unit × κ
  /-- Stops a job. -/
  stop : Connection → String → κ → Except ClusterError Unit × κ
  /-- Closes a connection. -/
  close : Connection → κ → κ
  /-- Waits, at most so many milliseconds, for a session to be confirmed. -/
  awaitReady : Session → Nat → κ → Awaited × κ
  /-- Lets milliseconds pass. -/
  elapse : Nat → κ → κ
  /-- The near end of a session's stream. -/
  link : Session → κ → Link
  /-- Replaces the near end of a session's stream. -/
  setLink : Session → Link → κ → κ
  /-- Lets the hosts do what they do by themselves until they are at rest. -/
  settle : κ → κ
  /-- More than the bytes that the cluster can still bring to its sessions. -/
  bound : κ → Nat

namespace Cluster

variable {κ : Type} [Cluster κ]

/-- The near end of a session's stream goes away. -/
def drop (s : Session) (c : κ) : κ := setLink s (link s c).drop c

/-- Takes all that comes until nothing is there or the far end has closed. `fuel` bounds the number of reads. -/
def drainOn (s : Session) : Nat → Drain → κ → Drain × κ
  | 0, d, c => (d, c)
  | fuel + 1, d, c =>
    match d.step (link s c) with
    | some (d, l) => drainOn s fuel d (settle (setLink s l c))
    | none => (d, c)

/-- Gives a session up, reading what still comes for at most so many milliseconds: the number of bytes read. -/
def drain (s : Session) (ms : Nat) (c : κ) : Nat × κ :=
  let (d, l) := Drain.start (link s c)
  let c := settle (setLink s l c)
  let fuel := bound c + l.incoming.buffer.length + 1
  let (d, c) := drainOn s fuel d c
  let (d, c) := if d.timedOut.isSome then (d, c) else drainOn s fuel d (elapse ms c)
  (d.expire.discarded, settle (drop s c))

end Cluster

end JobPlane

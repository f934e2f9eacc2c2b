import JobPlane.Moves
import JobPlane.Stream.Copy
import JobPlane.Stream.Link

/-!
# Bridging two connections

A bridge between a client's connection and a job's: one copy each way. A direction whose input ends, or whose copy fails,
announces the end at its destination and leaves the other direction alone. The bridge is over once both directions are, and
then both connections are dropped.
-/

namespace JobPlane

/-- A bridge between two connections. -/
structure Proxy where
  toJob : Copy := {}
  toClient : Copy := {}
  /-- Both directions are over and both connections are dropped. -/
  isOver : Bool := false
  deriving Repr

namespace Proxy

/-- The bytes carried each way. -/
structure Stats where
  toJob : Nat
  toClient : Nat
  deriving Repr, DecidableEq

/-- One of the two directions. -/
inductive Direction
  | toJob
  | toClient
  deriving Repr, DecidableEq

/-- One move of a bridge. -/
inductive Move
  | copy (d : Direction) (m : Copy.Move)
  | conclude
  deriving Repr, DecidableEq

/-- All moves. -/
def moves : List Move :=
  [.copy .toJob .write, .copy .toJob .read, .copy .toJob .conclude,
   .copy .toClient .write, .copy .toClient .read, .copy .toClient .conclude, .conclude]

/-- A destination after a move of its copy: the end is announced as soon as the copy is over. -/
def afterMove (c : Copy) (dst : Pipe) : Pipe := if c.result.isSome then dst.close else dst

/-- Makes a move between the client's connection and the job's. -/
def step (p : Proxy) (client job : Link) : Move → Option (Proxy × Link × Link)
  | .copy .toJob m =>
    (p.toJob.step client.incoming job.outgoing m).map fun (c, src, dst) =>
      ({ p with toJob := c }, { client with incoming := src }, { job with outgoing := afterMove c dst })
  | .copy .toClient m =>
    (p.toClient.step job.incoming client.outgoing m).map fun (c, src, dst) =>
      ({ p with toClient := c }, { client with outgoing := afterMove c dst }, { job with incoming := src })
  | .conclude =>
    if p.toJob.result.isSome && p.toClient.result.isSome && !p.isOver then
      some ({ p with isOver := true }, client.drop, job.drop)
    else none

/-- The bytes carried each way, once the bridge is over. -/
def stats (p : Proxy) : Option Stats :=
  if p.isOver then some ⟨p.toJob.carried, p.toClient.carried⟩ else none

end Proxy

/-- A bridge with the two connections it joins. -/
structure Bridge where
  proxy : Proxy := {}
  /-- The client's connection, seen from the bridge. -/
  client : Link := .fresh 65536
  /-- The job's connection, seen from the bridge. -/
  job : Link := .fresh 65536

namespace Bridge

/-- Makes a move. -/
def step (b : Bridge) (m : Proxy.Move) : Option Bridge :=
  (b.proxy.step b.client b.job m).map fun (proxy, client, job) => { proxy, client, job }

/-- Lets the bridge move until it is at rest. Every move carries a byte, or ends something that is not over yet. -/
def settle (b : Bridge) : Bridge :=
  let bytes := b.client.incoming.buffer.length + b.job.incoming.buffer.length +
    b.proxy.toJob.held.length + b.proxy.toClient.held.length
  JobPlane.settle step Proxy.moves (2 * bytes + 8) b

end Bridge

end JobPlane

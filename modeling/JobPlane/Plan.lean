import JobPlane.Cluster.Attach
import JobPlane.Placement

/-!
# Plans

A request to the control plane as a plan: what it asks of the catalog and the cluster next, and how it goes on for each answer. A
plan is carried out against anything that answers; its history is the list of what was asked and answered.
-/

namespace JobPlane

/-- A connection to a host. -/
structure Connection where
  host : String
  /-- Tells connections to one host apart. -/
  serial : Nat
  deriving Repr, DecidableEq, Inhabited

/-- A stream attached to a job. -/
structure Session where
  /-- Tells sessions apart. -/
  serial : Nat
  /-- The job had not started, and the host confirms the stream once it has. -/
  pending : Bool
  /-- The stream carries the bytes of a terminal. -/
  tty : Bool
  deriving Repr, DecidableEq, Inhabited

/-- What a plan can ask. -/
inductive Ask
  | app (id : String)
  | release (id : String)
  | artifact (id : String)
  /-- An ID that no job has. -/
  | freshId
  | listHosts
  | dial (host : String)
  | addJobs (batches : List (String × List JobSpec))
  | attach (c : Connection) (r : AttachRequest) (wait : Bool)
  | detach (c : Connection) (job : String)
  | stop (c : Connection) (job : String)
  /-- The connection is used no more. -/
  | close (c : Connection)
  /-- Waits, at most so many milliseconds, for the host to confirm a session. -/
  | awaitReady (s : Session) (ms : Nat)
  /-- Gives a session up, reading for at most so many milliseconds what still comes. -/
  | drain (s : Session) (ms : Nat)
  /-- Drops a session's stream. -/
  | drop (s : Session)
  deriving DecidableEq

/-- What an ask is answered with. -/
@[reducible] def Ask.Answer : Ask → Type
  | .app _ => Except CatalogError App
  | .release _ => Except CatalogError Release
  | .artifact _ => Except CatalogError Artifact
  | .freshId => String
  | .listHosts => Except ClusterError Snapshot
  | .dial _ => Except ClusterError Connection
  | .addJobs _ => Except ClusterError Unit
  | .attach _ _ _ => Except ClusterError Session
  | .detach _ _ => Except ClusterError Unit
  | .stop _ _ => Except ClusterError Unit
  | .close _ => Unit
  | .awaitReady _ _ => Awaited
  | .drain _ _ => Nat
  | .drop _ => Unit

/-- What a request does, by the answers it gets. -/
inductive Plan (α : Type) : Type
  | done (a : α)
  | ask (q : Ask) (next : q.Answer → Plan α)

namespace Plan

variable {α β σ : Type}

/-- One plan after another. -/
def bind : Plan α → (α → Plan β) → Plan β
  | .done a, f => f a
  | .ask q next, f => .ask q fun r => (next r).bind f

instance : Monad Plan where
  pure := .done
  bind := bind

/-- Asks one thing. -/
def call (q : Ask) : Plan q.Answer := .ask q .done

/-- Carries out a plan against something that answers and may change by it. -/
def run (answer : (q : Ask) → σ → q.Answer × σ) : Plan α → σ → α × σ
  | .done a, s => (a, s)
  | .ask q next, s =>
    let (r, s) := answer q s
    (next r).run answer s

/-- Something that was asked, with its answer. -/
structure Exchange where
  asked : Ask
  answer : asked.Answer

/-- A plan can come to a value after the given exchanges. -/
inductive Yields : Plan α → List Exchange → α → Prop
  | done (a : α) : Yields (.done a) [] a
  | ask {q : Ask} {next : q.Answer → Plan α} {h : List Exchange} {a : α} (r : q.Answer) (rest : Yields (next r) h a) :
      Yields (.ask q next) (⟨q, r⟩ :: h) a

/-- Goes on with what an answer brought, or ends with the refusal it amounts to. -/
def orRefuse {ε : Type} (r : Except ε α) (refusal : ε → Refusal) (next : α → Plan (Except Refusal β)) :
    Plan (Except Refusal β) :=
  match r with
  | .ok a => next a
  | .error e => .done (.error (refusal e))

/-- Closes a connection if the plan that uses it is refused. -/
def closingOnRefusal (c : Connection) (p : Plan (Except Refusal α)) : Plan (Except Refusal α) := do
  match ← p with
  | .ok a => return .ok a
  | .error e =>
    call (.close c)
    return .error e

end Plan

end JobPlane

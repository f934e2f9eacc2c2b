import JobPlane.Request.Jobs

/-!
# Opening a job's log

A log is an attach with the job's history, and with what follows if it is to be tailed. For a job that has not started yet the
attach is asked for once more, now waiting, and given up if the host does not confirm it in time.
-/

namespace JobPlane

/-- A log that can be copied out. -/
structure OpenLog where
  id : JobId
  session : Session
  connection : Connection
  deriving Repr, DecidableEq

namespace OpenLog

/-- What a log asks of a job's attach. -/
def attachFlags (tail : Bool) : AttachFlags := { stdout := true, stderr := true, logs := true, stream := tail }

/-- What a wait for confirmation amounts to, where it is no confirmation. -/
def waitRefusal : Awaited → Option Refusal
  | .ready => none
  | .refused reason => some (.ofCluster .attachWait (.unavailable reason))
  | .closed => some (.ofCluster .attachWait .closed)
  | .timedOut => some .attachWouldWait

/-- Attaches to a job that has not started, and waits for it to start. -/
def attachWaiting (ms : Nat) (c : Connection) (r : AttachRequest) : Plan (Except Refusal Session) := do
  match ← Plan.call (.attach c r true) with
  | .error e => return .error (.ofCluster .attach e)
  | .ok s =>
    if s.pending then
      let outcome ← Plan.call (.awaitReady s ms)
      if outcome = .timedOut then
        let _ ← Plan.call (.detach c r.job)
      match waitRefusal outcome with
      | none => return .ok s
      | some refusal =>
        Plan.call (.drop s)
        return .error refusal
    else return .ok s

/-- Attaches to a job's log over a connection to its host. -/
def attach (ms : Nat) (tail : Bool) (id : JobId) (c : Connection) : Plan (Except Refusal OpenLog) := do
  let request := { job := id.job, flags := attachFlags tail }
  match ← Plan.call (.attach c request false) with
  | .ok s => return .ok ⟨id, s, c⟩
  | .error .attachWouldWait =>
    match ← attachWaiting ms c request with
    | .ok s => return .ok ⟨id, s, c⟩
    | .error r => return .error r
  | .error e => return .error (.ofCluster .attach e)

end OpenLog

/-- Opens the log of the job with a cluster-wide ID, waiting at most so many milliseconds for it to start. -/
def openLog (ms : Nat) (id : String) (tail : Bool) : Plan (Except Refusal OpenLog) :=
  match JobId.parse id with
  | none => .done (.error (noSuchJob id))
  | some j => do
    match ← Plan.call (.dial j.host) with
    | .error e => return .error (.ofCluster .connect e)
    | .ok c => Plan.closingOnRefusal c (OpenLog.attach ms tail j c)

end JobPlane

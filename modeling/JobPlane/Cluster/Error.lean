import JobPlane.Stream.Error

/-!
# Cluster errors

Why a cluster or a host does not do what it is asked.
-/

namespace JobPlane

/-- Why a cluster or host refuses. -/
inductive ClusterError
  | hostNotFound (id : String)
  | jobNotFound (id : String)
  /-- The job is not running, and waiting was not asked for. -/
  | attachWouldWait
  | unavailable (reason : String)
  | stream (e : StreamError)
  /-- The attach was given up before the job ran. -/
  | closed
  deriving Repr, DecidableEq, Inhabited

namespace ClusterError

/-- The wording of a cluster error. -/
def message : ClusterError → String
  | hostNotFound id => "host not found: " ++ id
  | jobNotFound id => "job not found: " ++ id
  | attachWouldWait => "job is not running and wait was not requested"
  | unavailable r => "host unavailable: " ++ r
  | stream e => "I/O error: " ++ e.message
  | closed => "attach closed before the job started"

end ClusterError

end JobPlane

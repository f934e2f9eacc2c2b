import JobPlane.Catalog
import JobPlane.Cluster.Error

/-!
# Refusals

How a request to the control plane fails: the cause, its wording, the HTTP status it is answered with and the JSON body of that
answer. A host or job that is missing is reported as such whichever step noticed it.
-/

namespace JobPlane

/-- The step of a request that a cluster did not carry out. -/
inductive Phase
  | connect
  | attach
  | attachWait
  | schedule
  | stop
  | listHosts
  deriving Repr, DecidableEq, Inhabited

/-- The wording of a step's failure. -/
def Phase.message : Phase → String
  | connect => "host connect failed"
  | attach => "attach failed"
  | attachWait => "attach wait failed"
  | schedule => "schedule failed"
  | stop => "stop failed"
  | listHosts => "list hosts failed"

/-- Why a request is refused. -/
inductive Refusal
  | validation (field reason : String)
  | notFound (what : String)
  | noHosts
  | transport (phase : Phase) (reason : String)
  | attachWouldWait
  | upgradeRequired
  | internal (reason : String)
  deriving Repr, DecidableEq, Inhabited

namespace Refusal

/-- The wording of a refusal. -/
def message : Refusal → String
  | validation field reason => field ++ " " ++ reason
  | notFound what => "Not found: " ++ what
  | noHosts => "No hosts available"
  | transport phase reason => phase.message ++ ": " ++ reason
  | attachWouldWait => "Job is not running yet and attaching would block"
  | upgradeRequired => "Interactive attach requires an upgradeable connection"
  | internal reason => "Internal error: " ++ reason

/-- The HTTP status of a refusal. -/
def status : Refusal → Nat
  | validation _ _ => 400
  | notFound _ => 404
  | noHosts => 503
  | transport _ _ => 500
  | attachWouldWait => 409
  | upgradeRequired => 426
  | internal _ => 500

/-- The code of a refusal in its answer. -/
def code : Refusal → String
  | validation _ _ => "validation_error"
  | notFound _ => "not_found"
  | noHosts => "no_hosts_available"
  | transport _ _ => "transport_error"
  | attachWouldWait => "attach_would_wait"
  | upgradeRequired => "upgrade_required"
  | internal _ => "internal_error"

/-- The JSON body of a refusal's answer. -/
def body : Refusal → String
  | validation field reason =>
    Json.writeObject [("field", Json.writeString field), ("message", Json.writeString reason)]
  | r => Json.writeObject [("code", Json.writeString r.code), ("message", Json.writeString r.message)]

/-- A cluster error that came up in a step. -/
def ofCluster (phase : Phase) : ClusterError → Refusal
  | .hostNotFound id => .notFound ("host " ++ id)
  | .jobNotFound id => .notFound ("job " ++ id)
  | .attachWouldWait => .attachWouldWait
  | e => .transport phase e.message

/-- A catalog error. -/
def ofCatalog : CatalogError → Refusal
  | .invalidImage _ _ => .validation "artifact.uri" "is invalid"
  | .load m => .internal m
  | e => .notFound e.message

end Refusal

end JobPlane

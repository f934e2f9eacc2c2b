import JobPlane.Net.Address
import JobPlane.Request.Run
import JobPlane.Text.Quoted

/-!
# Configuration

What the control plane is started with, and the check that the IDs of its hosts can be used in the IDs of jobs.
-/

namespace JobPlane

/-- What containers are allowed. -/
structure Sandbox where
  networkDisabled : Bool := true
  memoryLimit : Option String := some "256m"
  cpuLimit : Option String := some "0.5"
  deriving Repr, DecidableEq, Inhabited

/-- How hosts start jobs. -/
inductive Runtime
  | process
  | docker
  deriving Repr, DecidableEq, Inhabited

/-- How a host is chosen for a new job. -/
inductive Placement
  | random
  | leastLoaded
  deriving Repr, DecidableEq, Inhabited

/-- The way of choosing that a placement stands for. -/
def Placement.selector (pick : Nat → Nat) : Placement → Selector
  | random => Selector.random pick
  | leastLoaded => Selector.leastLoaded

/-- What the control plane is started with. -/
structure Config where
  listen : SocketAddress := { ip := .v4 127 0 0 1, port := 1200 }
  hosts : List String := []
  runtime : Runtime := .process
  placement : Placement := .random
  sandbox : Sandbox := {}
  /-- The file of the catalog's seed. -/
  catalog : Option String := none
  /-- Milliseconds. -/
  attachWait : Nat := 30000
  /-- Milliseconds. -/
  attachDrain : Nat := 1000
  deriving Repr, DecidableEq, Inhabited

/-- Whether a text can be a host's ID. -/
def isHostId (s : String) : Bool := !s.isEmpty && !s.toList.contains '-'

/-- What is wrong with a configuration. -/
inductive ConfigError
  | noHosts
  | invalidHost (id : String)
  | duplicateHost (id : String)
  deriving Repr, DecidableEq

namespace ConfigError

/-- The wording of a configuration error. -/
def message : ConfigError → String
  | noHosts => "at least one host is required"
  | invalidHost id => "invalid host ID " ++ Text.quoted id ++ ": must be non-empty and must not contain '-'"
  | duplicateHost id => "duplicate host ID " ++ Text.quoted id

/-- A configuration error as it is reported when the program cannot start. -/
def report : ConfigError → String
  | noHosts => "NoHosts"
  | invalidHost id => "InvalidHostId(" ++ Text.quoted id ++ ")"
  | duplicateHost id => "DuplicateHost(" ++ Text.quoted id ++ ")"

end ConfigError

namespace Config

/-- Checks host IDs in order, those before them being given. -/
def checkHosts (before : List String) : List String → Except ConfigError Unit
  | [] => .ok ()
  | h :: hs =>
    if !isHostId h then .error (.invalidHost h)
    else if before.contains h then .error (.duplicateHost h)
    else checkHosts (h :: before) hs

/-- Checks that there are hosts and that their IDs can be used. -/
def validate (c : Config) : Except ConfigError Unit :=
  if c.hosts.isEmpty then .error .noHosts else checkHosts [] c.hosts

/-- The limits of a run. -/
def runLimits (c : Config) : RunLimits := { attachWait := c.attachWait, drain := c.attachDrain }

end Config

end JobPlane

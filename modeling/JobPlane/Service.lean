import JobPlane.Net.Address
import JobPlane.SystemError

/-!
# Serving

A server serves from its start until it is told to stop, and then ends well. Where it may not listen it ends at once. Who waits for
it to be told goes on at the moment it is.
-/

namespace JobPlane

namespace IpAddress

/-- Whether an address names a group of machines. -/
def isGroup : IpAddress → Bool
  | v4 _ _ _ _ => false
  | v6 gs => gs.head?.any (0xFF00 ≤ ·)

/-- Whether an address means something on one network only. -/
def isLinkLocal : IpAddress → Bool
  | v4 _ _ _ _ => false
  | v6 gs => gs.head?.any fun g => g / 64 = 0xFE80 / 64

/-- Whether the machine counts an address as its own: every one of the old kind, and of the new kind the one that stands for all,
the one that stands for the machine itself, and those that hold one of the old kind. -/
def isOwn : IpAddress → Bool
  | v4 _ _ _ _ => true
  | v6 gs => (gs.take 7).all (· = 0) && gs.getLast?.any (· ≤ 1) || gs.take 6 = [0, 0, 0, 0, 0, 0xFFFF]

end IpAddress

/-- What keeps a server from listening at an address: ports below 1024 but 0, which stands for any free one, need a right that the
server does not have. -/
def SocketAddress.listenError? (a : SocketAddress) : Option SystemError :=
  if a.ip.isGroup then some .invalidArgument
  else if 0 < a.port && a.port < 1024 then some .permissionDenied
  else if a.ip.isLinkLocal && a.scope = 0 then some .invalidArgument
  else if !a.ip.isOwn then some .addressNotAvailable
  else none

/-- A server. -/
structure Service where
  /-- What kept it from listening. -/
  refused : Option SystemError := none
  /-- It has been told to stop. -/
  told : Bool := false
  deriving Repr, DecidableEq

namespace Service

/-- A server at an address. -/
def start (a : SocketAddress) : Service := { refused := a.listenError? }

/-- Tells it to stop. -/
def stop (s : Service) : Service := { s with told := true }

/-- It still serves. -/
def serves (s : Service) : Bool := s.refused.isNone && !s.told

/-- Who waits for it to be told to stop still waits. -/
def isAwaited (s : Service) : Bool := !s.told

/-- How it ended, if it has. -/
def result (s : Service) : Option (Except StreamError Unit) :=
  match s.refused with
  | some e => some (.error e.failure)
  | none => if s.told then some (.ok ()) else none

end Service

end JobPlane

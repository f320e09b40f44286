import ConcuRide.Server.Registry
import ConcuRide.Server.Election

set_option autoImplicit false

/-! # One step of the server actor

`Server.handle` runs the handler of a message. What a handler learns from outside (whether the
connection with the leader is still up, whether a TCP connection could be opened) is its `Oracle`.
-/

namespace ConcuRide

/-- The answers of the outside world a handler may ask for. -/
structure Oracle where
  connected : Bool
  stream : Option ServerConnection
deriving DecidableEq, Repr

/-- Connections are up, and none can be opened. -/
def Oracle.up : Oracle := { connected := true, stream := none }

/-- Connections are down, and none can be opened. -/
def Oracle.down : Oracle := { connected := false, stream := none }

/-- The handler of a message; `none` when it panics. -/
def Server.handle (N : ℕ) (o : Oracle) (s : Server) : Msg → Option (Server × List Effect)
  | .newDriver m => some (s.newDriver m)
  | .getDrivers addr => some (s.getDrivers addr)
  | .passengerLogin m => some (s.passengerLogin m)
  | .updateDriver m => some (s.updateDriver m)
  | .busyDriver m => some (s.busyDriver m)
  | .reconnectDriver m => some (s.reconnectDriver m)
  | .updateDriverSocket m => some (s.updateDriverSocket m)
  | .newServerConnection m => some (s.newServerConnection m)
  | .ping => some (s.ping o.connected)
  | .pong addr => some (s.pong addr)
  | .updateNetworkState m => some (s.updateNetworkState m)
  | .setLeader m => some (s.setLeader m)
  | .sendLeaderId addr => s.sendLeaderId addr
  | .startElection => some (s.startElection N)
  | .waitForNeighborAck m => some (s.waitForNeighborAck m)
  | .checkIfNeighborAcked m => some (s.checkIfNeighborAcked N m)
  | .election m => s.election N m
  | .newLeader m => s.newLeader N m
  | .neighborAck m => some (s.neighborAck m)
  | .connectToServer => some (s.connectToServer o.stream)

end ConcuRide

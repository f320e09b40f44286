import ConcuRide.Lib.Json
import ConcuRide.Server.Messages

set_option autoImplicit false

/-! # Messages of the driver process

The actix messages of `driver/src/models/*.rs`, what the handlers of a driver send, and what the
server makes of a driver's lines (`server/src/sender.rs`). As in the server, a line is kept as the
value it is serialized from. -/

namespace ConcuRide.Driver

open Lib

/-- A TCP connection to the given start of a server, and the number it is known by. -/
structure Link where
  server : ServerConnection
  number : ℕ
deriving DecidableEq, Repr

/-! ## Lines -/

/-- A line for the leader. -/
inductive ServerLine where
  | newDriver (socket name : String) (position : Position)
  | busyDriver (name : String)
  | availableDriver (name : String) (position : Position)
  | reconnectDriver (idPassenger : ℕ) (socket name : String)
deriving DecidableEq, Repr

/-- The message a `TcpSender` of the leader hands to its server for a line. -/
def ServerLine.toMsg : ServerLine → ConcuRide.Msg
  | .newDriver socket name position =>
    .newDriver { name := name, socket := socket, position := position }
  | .busyDriver name => .busyDriver { name := name }
  | .availableDriver name position => .updateDriver { newPosition := position, name := name }
  | .reconnectDriver idPassenger socket name =>
    .reconnectDriver { idPassenger := idPassenger, socket := socket, name := name }

/-- A line for a passenger. -/
inductive PassengerLine where
  | no
  | ok (driverSocket : String)
  | driverArrived
  | recoverResponse (pickedUp : Bool) (position : Position) (endRide : Bool)
deriving DecidableEq, Repr

/-! ## The mailbox -/

structure Register where
  socket : String
  name : String
  position : Position
deriving DecidableEq, Repr

/-- `RequestRide`, with `addr` the connection of the passenger. -/
structure RequestRide where
  idPassenger : ℕ
  origin : Position
  destination : Position
  addr : ℕ
deriving DecidableEq, Repr

/-- A message in the mailbox of the `Driver` actor. -/
inductive Msg where
  | setReceiver (receiver : Link)
  | register (m : Register)
  | newConnection (addr : ℕ)
  | requestRide (m : RequestRide)
  | startRide
  | pickUpPassenger
  | rideToDestination
  | endRide (dst : Position)
  | passengerRecover (idPassenger passengerConnection : ℕ)
  | reconnect (serializedMsg : ServerLine)
  | recovery (status : Json) (socket : String)
  | reconnectPassenger (passengerConnection : ℕ) (position : Position)

/-- The messages that come from outside once the driver runs: the connections of passengers, and the
    lines its `PassengerConnection` actors read. -/
def Msg.isExternal : Msg → Bool
  | .newConnection _ | .requestRide _ | .passengerRecover _ _ | .reconnectPassenger _ _ => true
  | _ => false

/-! ## What a handler emits -/

/-- Whatever a handler sends: to its own mailbox, to a server or to a passenger, and the state it
    saves in the file of the given name. -/
inductive Effect where
  | trySend (m : Msg)
  | server (link : Link) (line : ServerLine)
  | passenger (addr : ℕ) (line : PassengerLine)
  | save (file : String) (status : Json)

end ConcuRide.Driver

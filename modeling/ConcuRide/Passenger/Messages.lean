import ConcuRide.Common
import ConcuRide.Lib.Json

set_option autoImplicit false

/-! # Messages of the passenger process

The actix messages of `passenger/src/models/*.rs`, and what the handlers of a passenger send. As in
the server, a line is kept as the value it is serialized from. -/

namespace ConcuRide.Passenger

open Lib

/-- `models::driver::DriverInfo`, the part of a driver's data a passenger reads. -/
structure DriverInfo where
  socket : String
  position : Position
deriving DecidableEq, Repr

/-- A TCP connection to a driver: the socket it was opened to and the number it is known by. -/
structure Connection where
  socket : String
  number : ℕ
deriving DecidableEq, Repr

/-! ## Lines -/

/-- A line for the leader. -/
inductive ServerLine where
  | getDrivers (id : ℕ)
  | login (name : String)
deriving DecidableEq, Repr

/-- A line for the gateway. -/
inductive GatewayLine where
  | authorizePayment
  | confirmPayment (name : String)
deriving DecidableEq, Repr

/-- A line for a driver. -/
inductive DriverLine where
  | requestRide (id : ℕ) (origin destination : Position)
  | reconnectDriver (position : Position)
  | recover (idPassenger : ℕ)
deriving DecidableEq, Repr

/-! ## The mailbox -/

structure RecoverResponse where
  pickedUp : Bool
  position : Position
  endRide : Bool
deriving DecidableEq, Repr

/-- A message in the mailbox of the `Passenger` actor. -/
inductive Msg where
  | setReceiver (receiver : ℕ)
  | getDrivers
  | drivers (driversInfo : List DriverInfo)
  | login (name : String)
  | traveling
  | driverArrived
  | completeLogin (id : ℕ)
  | rideAccepted (driverSocket : String)
  | requestDrive
  | keepLooking
  | paymentAuthorized
  | paymentDeny
  | recoverResponse (m : RecoverResponse)
  | reconnect (serializedMsg : ServerLine)
  | reconnectDriver (socket : String)
  | recover (status : Json)

/-- The messages for which a `TcpReceiver` reads a line of the leader or of a driver. -/
def Msg.isLine : Msg → Bool
  | .drivers _ | .completeLogin _ | .rideAccepted _ | .driverArrived | .keepLooking
  | .recoverResponse _ | .reconnectDriver _ => true
  | _ => false

/-- What the `GatewayConnection` sends a passenger for a `PaymentAuthorizationStatus` line. -/
def paymentAuthorizationStatus (isAuthorized : Bool) : List Msg :=
  if isAuthorized then [.paymentAuthorized, .requestDrive] else [.paymentDeny]

/-! ## What a handler emits -/

/-- Whatever a handler sends: to its own mailbox, to the leader, to the gateway or on a connection
    to a driver; the state it saves in the file of the given name, and the permit that ends the
    program. -/
inductive Effect where
  | trySend (m : Msg)
  | server (line : ServerLine)
  | gateway (line : GatewayLine)
  | driver (c : Connection) (line : DriverLine)
  | save (file : String) (status : Json)
  | addPermits

end ConcuRide.Passenger

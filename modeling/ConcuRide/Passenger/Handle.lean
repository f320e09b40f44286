import ConcuRide.Passenger.Basic

set_option autoImplicit false

/-! # Handlers of the passenger

The handlers of `passenger/src/passenger.rs`. A handler returns the new state and what it sends;
one that indexes a missing connection, or moves below coordinate 0, returns `none`. -/

namespace ConcuRide.Passenger

open Lib

/-- What a handler learns from outside: whether the connection to the leader is still there
    (`receiver.connected()`), and the connections it gets from `new_connection` and from
    `connect_to_server_leader`. -/
structure Oracle where
  connected : Bool
  driver : Option ℕ
  server : Option ℕ

/-- Connections are up, and none can be opened. -/
def Oracle.up : Oracle := { connected := true, driver := none, server := none }

/-- A line for the leader, which is sent again later when the connection turns out to be lost. -/
def sendToServer (p : Passenger) (connected : Bool) (line : ServerLine) : List Effect :=
  .server line ::
    if p.serverReceiver.isSome && connected then [] else [.trySend (.reconnect line)]

/-- The connection to the driver replaces the first one, if there is one. -/
def setConnection (p : Passenger) (driver : Connection) : Passenger :=
  { p with connections := if p.connections = [] then [driver] else p.connections.set 0 driver }

/-- The end of a ride: the gateway is asked to confirm the payment, and the program ends. -/
def finishRide (p : Passenger) : List Effect :=
  [.gateway (.confirmPayment p.name), .addPermits]

/-- `Handler<SetReceiver>`. -/
def setReceiver (p : Passenger) (receiver : ℕ) : Passenger × List Effect :=
  ({ p with serverReceiver := some receiver }, [])

/-- `Handler<GetDrivers>`. -/
def getDrivers (p : Passenger) (connected : Bool) : Passenger × List Effect :=
  (p, p.sendToServer connected (.getDrivers p.info.id))

/-- `Handler<Drivers>`, with `driver` the connection `new_connection` opened, if any. -/
def drivers (distance : Position → Position → ℕ) (p : Passenger) (driversInfo : List DriverInfo)
    (driver : Option ℕ) : Passenger × List Effect :=
  let p := { p with driversInfo := driversInfo }
  let saved := p.saveState
  match p.selectDriver distance 5 with
  | (p, none) => (p, [saved])
  | (p, some driverInfo) =>
    match driver with
    | none => (p, [saved, .trySend (.drivers p.driversInfo)])
    | some number =>
      (p.setConnection ⟨driverInfo.socket, number⟩, [saved, .gateway .authorizePayment])

/-- `Handler<Login>`. -/
def login (p : Passenger) (name : String) (connected : Bool) : Passenger × List Effect :=
  (p, p.sendToServer connected (.login name))

/-- `Handler<Traveling>`. -/
def traveling (p : Passenger) : Option (Passenger × List Effect) := do
  let saved := p.saveState
  let p ← p.moveTo p.info.destination
  if p.info.position ≠ p.info.destination then return (p, [saved, .trySend .traveling])
  else return (p, saved :: p.finishRide)

/-- `Handler<DriverArrived>`. -/
def driverArrived (p : Passenger) : Passenger × List Effect :=
  (p, [.trySend .traveling])

/-- `Handler<CompleteLogin>`. -/
def completeLogin (p : Passenger) (id : ℕ) : Passenger × List Effect :=
  ({ p with info := { p.info with id := id } }, [])

/-- `Handler<RideAccepted>`. -/
def rideAccepted (p : Passenger) (driverSocket : String) : Passenger × List Effect :=
  let p := { p with driverSocket := some driverSocket }
  (p, [p.saveState])

/-- `Handler<RequestDrive>`. -/
def requestDrive (p : Passenger) : Option (Passenger × List Effect) := do
  let driver ← p.connections[0]?
  return (p, [.driver driver (.requestRide p.info.id p.info.position p.info.destination)])

/-- `Handler<KeepLooking>`. -/
def keepLooking (p : Passenger) : Passenger × List Effect :=
  (p, [.trySend (.drivers p.driversInfo)])

/-- `Handler<PaymentAuthorized>`. -/
def handlePaymentAuthorized (p : Passenger) : Passenger × List Effect :=
  let p := { p with paymentAuthorized := true }
  (p, [p.saveState])

/-- `Handler<PaymentDeny>`. -/
def paymentDeny (p : Passenger) : Passenger × List Effect :=
  let p := { p with paymentAuthorized := false }
  (p, [p.saveState, .trySend .getDrivers])

/-- `Handler<RecoverResponse>`. -/
def recoverResponse (p : Passenger) (msg : RecoverResponse) : Passenger × List Effect :=
  if msg.endRide then (p, p.finishRide)
  else if msg.pickedUp then
    ({ p with info := { p.info with position := msg.position } }, [.trySend .traveling])
  else (p, [])

/-- `Handler<Reconnect>`, with `server` the connection `connect_to_server_leader` opened, if
    any. -/
def reconnect (p : Passenger) (serializedMsg : ServerLine) (server : Option ℕ) :
    Passenger × List Effect :=
  match server with
  | none => (p, [])
  | some number =>
    ({ p with serverSender := number, serverReceiver := some number }, [.server serializedMsg])

/-- `Handler<ReconnectDriver>`. -/
def reconnectDriver (p : Passenger) (socket : String) (driver : Option ℕ) :
    Passenger × List Effect :=
  match driver with
  | none => (p, [])
  | some number =>
    (p.setConnection ⟨socket, number⟩,
      [.driver ⟨socket, number⟩ (.reconnectDriver p.info.position)])

/-- The part of `Handler<Recover>` that reads the saved state. -/
def restore (p : Passenger) (status : Json) : Passenger :=
  { p with
    name := ((status.get "name").asStr).getD p.name
    info := { p.info with id := ((status.get "id").asU64).getD p.info.id }
    driverSocket := match (status.get "driver_socket").asStr with
      | some driverSocket => some driverSocket
      | none => p.driverSocket
    paymentAuthorized := ((status.get "payment_authorized").asBool).getD p.paymentAuthorized
    paymentConfirmed := ((status.get "payment_confirmed").asBool).getD p.paymentConfirmed }

/-- `Handler<Recover>`. -/
def recover (p : Passenger) (status : Json) (driver : Option ℕ) : Passenger × List Effect :=
  let p := p.restore status
  let login : Effect := .trySend (.login p.name)
  if p.paymentConfirmed then (p, [login])
  else if !p.paymentAuthorized then (p, [login, .trySend .getDrivers])
  else
    match p.driverSocket, driver with
    | some driverSocket, some number =>
      (p, [login, .driver ⟨driverSocket, number⟩ (.recover p.info.id)])
    | _, _ => (p, [login])

/-- The handler of a message; `none` when it panics. -/
def handle (distance : Position → Position → ℕ) (o : Oracle) (p : Passenger) :
    Msg → Option (Passenger × List Effect)
  | .setReceiver receiver => some (p.setReceiver receiver)
  | .getDrivers => some (p.getDrivers o.connected)
  | .drivers driversInfo => some (p.drivers distance driversInfo o.driver)
  | .login name => some (p.login name o.connected)
  | .traveling => p.traveling
  | .driverArrived => some p.driverArrived
  | .completeLogin id => some (p.completeLogin id)
  | .rideAccepted driverSocket => some (p.rideAccepted driverSocket)
  | .requestDrive => p.requestDrive
  | .keepLooking => some p.keepLooking
  | .paymentAuthorized => some p.handlePaymentAuthorized
  | .paymentDeny => some p.paymentDeny
  | .recoverResponse m => some (p.recoverResponse m)
  | .reconnect serializedMsg => some (p.reconnect serializedMsg o.server)
  | .reconnectDriver socket => some (p.reconnectDriver socket o.driver)
  | .recover status => some (p.recover status o.driver)

end ConcuRide.Passenger

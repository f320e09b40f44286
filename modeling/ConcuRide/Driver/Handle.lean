import ConcuRide.Driver.Basic

set_option autoImplicit false

/-! # Handlers of the driver

The handlers of `driver/src/driver.rs`. A handler returns the new state and what it sends; one that
moves below coordinate 0, or indexes past the end of a saved position, returns `none`. -/

namespace ConcuRide.Driver

open Lib

/-- What a handler learns from outside: whether the connection to the leader is still there
    (`receiver.connected()`), and the connection it gets from `connect_to_server_leader`. -/
structure Oracle where
  connected : Bool
  server : Option Link
deriving DecidableEq, Repr

/-- A line for the leader, which is sent again later when the connection turns out to be lost. -/
def sendToServer (d : Driver) (connected : Bool) (line : ServerLine) : List Effect :=
  .server d.serverSender line ::
    if d.serverReceiver.isSome && connected then [] else [.trySend (.reconnect line)]

/-- `Handler<SetReceiver>`. -/
def setReceiver (d : Driver) (receiver : Link) : Driver × List Effect :=
  ({ d with serverReceiver := some receiver }, [])

/-- `Handler<Reconnect>`, with `server` the connection `connect_to_server_leader` opened, if
    any. -/
def reconnect (d : Driver) (serializedMsg : ServerLine) (server : Option Link) :
    Driver × List Effect :=
  match server with
  | none => (d, [])
  | some link =>
    ({ d with serverReceiver := some link, serverSender := link },
      [.server link serializedMsg])

/-- `Handler<Register>`. -/
def register (d : Driver) (msg : Register) (connected : Bool) : Driver × List Effect :=
  let sent := d.sendToServer connected (.newDriver msg.socket msg.name msg.position)
  let d := { d with isRegistered := true }
  (d, sent ++ [d.saveState])

/-- `Handler<NewConnection>`. -/
def newConnection (d : Driver) (addr : ℕ) : Driver × List Effect :=
  ({ d with connections := d.connections ++ [addr] }, [])

/-- `Handler<RequestRide>`: a free driver takes the ride and tells the leader that it is busy. -/
def requestRide (d : Driver) (msg : RequestRide) (connected : Bool) : Driver × List Effect :=
  if !d.isAvailable then (d, [.passenger msg.addr .no])
  else
    let d := { d with
      idCurrentPassenger := msg.idPassenger
      passengerPosition := some msg.origin
      destination := some msg.destination
      isAvailable := false
      currentPassengerConnection := some msg.addr }
    (d, [.passenger msg.addr (.ok d.driverSocket), d.saveState] ++
      d.sendToServer connected (.busyDriver d.name) ++ [.trySend .startRide])

/-- `Handler<StartRide>`. -/
def startRide (d : Driver) : Driver × List Effect :=
  (d, [.trySend .pickUpPassenger])

/-- `Handler<PickUpPassenger>`. -/
def pickUpPassenger (d : Driver) : Option (Driver × List Effect) :=
  match d.passengerPosition with
  | none => some (d, [])
  | some passengerPosition => do
    let d ← d.moveTo passengerPosition
    if d.position ≠ passengerPosition then return (d, [.trySend .pickUpPassenger])
    else
      let d := { d with passengerPickedUp := true }
      let arrived := d.currentPassengerConnection.toList.map fun addr =>
        Effect.passenger addr .driverArrived
      return (d, arrived ++ [.trySend .rideToDestination])

/-- `Handler<RideToDestination>`. -/
def rideToDestination (d : Driver) : Option (Driver × List Effect) :=
  let saved := d.saveState
  match d.destination with
  | none => some (d, [saved])
  | some destination => do
    let d ← d.moveTo destination
    if d.position ≠ destination then return (d, [saved, .trySend .rideToDestination])
    else return (d, [saved, .trySend (.endRide d.position)])

/-- `Handler<EndRide>`: the driver tells the leader that it is free again. -/
def endRide (d : Driver) (dst : Position) (connected : Bool) : Driver × List Effect :=
  let d := { d with position := dst }
  let sent := d.sendToServer connected (.availableDriver d.name d.position)
  let d := { d with isAvailable := true, passengerPickedUp := false }
  (d, sent ++ [d.saveState])

/-- `Handler<PassengerRecover>`. -/
def passengerRecover (d : Driver) (idPassenger passengerConnection : ℕ) : Driver × List Effect :=
  if d.idCurrentPassenger = idPassenger then
    let d := { d with currentPassengerConnection := some passengerConnection }
    let endRide := d.destination.any fun destination => decide (d.position = destination)
    (d, [.passenger passengerConnection
      (.recoverResponse d.passengerPickedUp d.position endRide)])
  else (d, [.passenger passengerConnection (.recoverResponse false d.position true)])

/-- `[v[0].as_u64(), v[1].as_u64()]` of a saved array; `none` when it is too short. -/
def readPosition : List Json → Option (Option Position)
  | x :: y :: _ =>
    some (match x.asU64, y.asU64 with
      | some x, some y => some (x, y)
      | _, _ => none)
  | _ => none

/-- The saved position under `key`, or else `old`. -/
def restorePosition (status : Json) (key : String) (old : Option Position) :
    Option (Option Position) :=
  match (status.get key).asArray with
  | none => some old
  | some elements => (readPosition elements).map fun position => position.or old

/-- The part of `Handler<Recovery>` that reads the saved state. -/
def restore (d : Driver) (status : Json) : Option Driver := do
  let destination ← restorePosition status "destination" d.destination
  let passengerPosition ← restorePosition status "passenger_position" d.passengerPosition
  let position ← restorePosition status "position" (some d.position)
  return { d with
    destination := destination
    isAvailable := ((status.get "is_available").asBool).getD d.isAvailable
    isRegistered := ((status.get "is_registered").asBool).getD d.isRegistered
    idCurrentPassenger := ((status.get "id_current_passenger").asU64).getD d.idCurrentPassenger
    passengerPickedUp := ((status.get "passenger_picked_up").asBool).getD d.passengerPickedUp
    passengerPosition := passengerPosition
    position := position.getD d.position }

/-- `Handler<Recovery>`. -/
def recovery (d : Driver) (status : Json) (socket : String) : Option (Driver × List Effect) := do
  let d ← d.restore status
  if d.isAvailable then return (d, [])
  else
    return (d, [.server d.serverSender (.reconnectDriver d.idCurrentPassenger socket d.name),
      .trySend (if d.passengerPickedUp then .rideToDestination else .pickUpPassenger)])

/-- `Handler<ReconnectPassenger>`. -/
def reconnectPassenger (d : Driver) (passengerConnection : ℕ) (position : Position) :
    Driver × List Effect :=
  ({ d with
      currentPassengerConnection := some passengerConnection
      position := position
      passengerPosition := some position }, [])

/-- The handler of a message; `none` when it panics. -/
def handle (o : Oracle) (d : Driver) : Msg → Option (Driver × List Effect)
  | .setReceiver receiver => some (d.setReceiver receiver)
  | .register m => some (d.register m o.connected)
  | .newConnection addr => some (d.newConnection addr)
  | .requestRide m => some (d.requestRide m o.connected)
  | .startRide => some d.startRide
  | .pickUpPassenger => d.pickUpPassenger
  | .rideToDestination => d.rideToDestination
  | .endRide dst => some (d.endRide dst o.connected)
  | .passengerRecover idPassenger passengerConnection =>
    some (d.passengerRecover idPassenger passengerConnection)
  | .reconnect serializedMsg => some (d.reconnect serializedMsg o.server)
  | .recovery status socket => d.recovery status socket
  | .reconnectPassenger passengerConnection position =>
    some (d.reconnectPassenger passengerConnection position)

end ConcuRide.Driver

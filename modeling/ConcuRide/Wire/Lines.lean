import ConcuRide.Lib.Lines
import ConcuRide.Rides.World
import ConcuRide.Server.LeaderConnection
import ConcuRide.Server.UdpReceiver

set_option autoImplicit false

/-! # Lines on the wire

The messages that the lines of the other modules stand for, as `serialize_message` gets them, and
the `StreamHandler`s that read them at the other end of a TCP connection: those of
`server/src/sender.rs`, `passenger/src/receiver.rs`, `passenger/src/gateway_connection.rs`,
`driver/src/passenger_connection.rs` and `gateway/src/connection.rs`. The one of
`server/src/server_connection.rs` is `LeaderConnection.line`. -/

namespace ConcuRide

open Lib

/-- `TcpMessage::new`, and `PassengerConnectionMessage::new` of a driver. -/
def tcpMessage (msg : String) : String := msg ++ "\n"

/-- The bytes on a connection, when the given messages (a name and a payload each) are written one
    after the other. -/
def written (toString : Json → String) (messages : List (String × Json)) : List UInt8 :=
  messages.flatMap fun m => utf8 (tcpMessage (serializeMessage toString m.1 m.2))

/-- A `StreamHandler`: a line is split and `receive` reads its fields. A line that could not be
    read, and a field that cannot be, are only logged. -/
def streamHandler {β : Type} (fromStr : String → Option Json)
    (receive : String → Json → Except DeserializationError (List β)) (read : Option String) :
    List β :=
  match read with
  | none => []
  | some line =>
    let (messageName, payload) := splitMessage fromStr line
    match receive messageName payload with
    | .error _ => []
    | .ok messages => messages

/-! ## Lines for a leader -/

/-- `DriverInfo` of the server, as it is written. -/
instance : ToValue DriverInfo where
  toValue d := .object [("name", toValue d.name), ("socket", toValue d.socket),
    ("id", toValue d.id), ("position", toValue d.position)]
  Fits d := Fits d.id ∧ Fits d.position

/-- A line of a driver. -/
def Driver.ServerLine.message : ServerLine → String × Json
  | .newDriver socket name position =>
    ("new_driver", .object [("socket", toValue socket), ("name", toValue name),
      ("position", toValue position)])
  | .busyDriver name => ("busy_driver", .object [("name", toValue name)])
  | .availableDriver name position =>
    ("available_driver", .object [("name", toValue name), ("position", toValue position)])
  | .reconnectDriver idPassenger socket name =>
    ("reconnect_driver", .object [("id_passenger", toValue idPassenger), ("socket", toValue socket),
      ("name", toValue name)])

/-- The numbers of a line are `u64`s. -/
def Driver.ServerLine.InRange : ServerLine → Prop
  | .newDriver _ _ position | .availableDriver _ position => Fits position
  | .busyDriver _ => True
  | .reconnectDriver idPassenger _ _ => Fits idPassenger

/-- A line of a passenger. -/
def Passenger.ServerLine.message : ServerLine → String × Json
  | .getDrivers id => ("get_drivers", .object [("id", toValue id)])
  | .login name => ("login", .object [("name", toValue name)])

def Passenger.ServerLine.InRange : ServerLine → Prop
  | .getDrivers id => Fits id
  | .login _ => True

/-- The message a `TcpSender` of the leader hands to its server for a line of a passenger. It does
    not read the id of a `get_drivers`. -/
def Passenger.ServerLine.toMsg (addr : Addr) : ServerLine → ConcuRide.Msg
  | .getDrivers _ => .getDrivers addr
  | .login name => .passengerLogin { name, addr }

/-- A line of a replica: the one `servidor_replica` writes first, and the pings of its
    `ServerConnection`. -/
inductive ReplicaLine where
  | newReplica (id : ℕ) (socket : String)
  | ping
deriving DecidableEq, Repr

def ReplicaLine.message : ReplicaLine → String × Json
  | .newReplica id socket =>
    ("new_replica", .object [("id", toValue id), ("socket", toValue socket)])
  | .ping => ("ping", .null)

def ReplicaLine.InRange : ReplicaLine → Prop
  | .newReplica id _ => Fits id
  | .ping => True

/-- The message a `TcpSender` of the leader hands to its server for a line of a replica. -/
def ReplicaLine.toMsg (addr : Addr) : ReplicaLine → Msg
  | .newReplica id socket => .newServerConnection { addr, socket, id }
  | .ping => .pong addr

/-- What the `TcpSender` at `addr` sends its server for a message. -/
def TcpSender.receive (addr : Addr) (messageName : String) (payload : Json) :
    Except DeserializationError (List Msg) :=
  if messageName = "new_replica" then do
    let id ← deserializeField ℕ payload "id"
    let socket ← deserializeField String payload "socket"
    return [.newServerConnection { addr, socket, id }]
  else if messageName = "login" then do
    let name ← deserializeField String payload "name"
    return [.passengerLogin { name, addr }]
  else if messageName = "get_drivers" then
    return [.getDrivers addr]
  else if messageName = "new_driver" then do
    let position ← deserializeField Position payload "position"
    let socket ← deserializeField String payload "socket"
    let name ← deserializeField String payload "name"
    return [.newDriver { socket, name, position }]
  else if messageName = "busy_driver" then do
    let driverName ← deserializeField String payload "name"
    return [.busyDriver { name := driverName }]
  else if messageName = "available_driver" then do
    let newPosition ← deserializeField Position payload "position"
    let name ← deserializeField String payload "name"
    return [.updateDriver { newPosition, name }]
  else if messageName = "ping" then
    return [.pong addr]
  else if messageName = "reconnect_driver" then do
    let idPassenger ← deserializeField ℕ payload "id_passenger"
    let socket ← deserializeField String payload "socket"
    let name ← deserializeField String payload "name"
    return [.reconnectDriver { name, idPassenger, socket }]
  else
    return []

/-- `StreamHandler for TcpSender`. -/
def TcpSender.line (fromStr : String → Option Json) (addr : Addr) : Option String → List Msg :=
  streamHandler fromStr (TcpSender.receive addr)

/-! ## Lines of a leader -/

/-- A line of a leader, for a passenger or for a replica. -/
def Line.message : Line → String × Json
  | .drivers driversInfo => ("drivers", .object [("drivers_info", toValue driversInfo)])
  | .identificador id => ("identificador", .object [("id", toValue id)])
  | .reconnectDriver socket => ("reconnect_driver", .object [("socket", toValue socket)])
  | .pong state =>
    ("pong", .object [("ids_count", toValue state.idsCount), ("drivers", toValue state.drivers),
      ("busy_drivers", toValue state.busyDrivers), ("passengers", toValue state.passengers),
      ("udp_sockets_replicas", toValue state.udpSocketsReplicas),
      ("disconnected_servers", toValue state.disconnectedServers)])

def UpdateNetworkState.InRange (state : UpdateNetworkState) : Prop :=
  Fits state.idsCount ∧ Fits state.drivers ∧ Fits state.busyDrivers ∧ Fits state.passengers ∧
    Fits state.udpSocketsReplicas ∧ Fits state.disconnectedServers

def Line.InRange : Line → Prop
  | .drivers driversInfo => Fits driversInfo
  | .identificador id => Fits id
  | .reconnectDriver _ => True
  | .pong state => state.InRange

/-- The same state, where the order of the entries of a map does not count. -/
structure UpdateNetworkState.Same (state state' : UpdateNetworkState) : Prop where
  idsCount : state'.idsCount = state.idsCount
  drivers : ∀ name, state'.drivers.lookup name = state.drivers.lookup name
  busyDrivers : ∀ name, state'.busyDrivers.lookup name = state.busyDrivers.lookup name
  passengers : ∀ name, state'.passengers.lookup name = state.passengers.lookup name
  udpSocketsReplicas :
    ∀ id, state'.udpSocketsReplicas.lookup id = state.udpSocketsReplicas.lookup id
  disconnectedServers : state'.disconnectedServers = state.disconnectedServers

/-- `DriverInfo` of the passenger, as it is read from a list of drivers. -/
instance : FromValue Passenger.DriverInfo where
  fromValue v := do
    let socket ← (v.field? "socket").bind fromValue
    let position ← (v.field? "position").bind fromValue
    return { socket, position }

/-- What a passenger knows of a driver. -/
def DriverInfo.forPassenger (d : DriverInfo) : Passenger.DriverInfo :=
  { socket := d.socket, position := d.position }

/-- The messages a `TcpReceiver` hands to its passenger for a line of the leader. A `pong` is for
    replicas; a passenger would drop it. -/
def Line.toPassenger : Line → List Passenger.Msg
  | .drivers driversInfo => [.drivers (driversInfo.map DriverInfo.forPassenger)]
  | .identificador id => [.completeLogin id]
  | .reconnectDriver socket => [.reconnectDriver socket]
  | .pong _ => []

/-! ## Lines between a passenger and a driver -/

def Driver.PassengerLine.message : PassengerLine → String × Json
  | .no => ("no", .null)
  | .ok driverSocket => ("ok", .object [("driver_socket", toValue driverSocket)])
  | .driverArrived => ("driver_arrived", .null)
  | .recoverResponse pickedUp position endRide =>
    ("recover_response", .object [("picked_up", toValue pickedUp), ("position", toValue position),
      ("end_ride", toValue endRide)])

def Driver.PassengerLine.InRange : PassengerLine → Prop
  | .recoverResponse _ position _ => Fits position
  | _ => True

/-- What a `TcpReceiver` sends its passenger for a message of the leader or of a driver. -/
def Passenger.TcpReceiver.receive (messageName : String) (payload : Json) :
    Except DeserializationError (List Passenger.Msg) :=
  if messageName = "drivers" then do
    let driversInfo ← deserializeField (List Passenger.DriverInfo) payload "drivers_info"
    return [.drivers driversInfo]
  else if messageName = "identificador" then do
    let id ← deserializeField ℕ payload "id"
    return [.completeLogin id]
  else if messageName = "ok" then do
    let driverSocket ← deserializeField String payload "driver_socket"
    return [.rideAccepted driverSocket]
  else if messageName = "driver_arrived" then
    return [.driverArrived]
  else if messageName = "no" then
    return [.keepLooking]
  else if messageName = "recover_response" then do
    let pickedUp ← deserializeField Bool payload "picked_up"
    let position ← deserializeField Position payload "position"
    let endRide ← deserializeField Bool payload "end_ride"
    return [.recoverResponse { pickedUp, position, endRide }]
  else if messageName = "reconnect_driver" then do
    let socket ← deserializeField String payload "socket"
    return [.reconnectDriver socket]
  else
    return []

/-- `StreamHandler for TcpReceiver` of the passenger. -/
def Passenger.TcpReceiver.line (fromStr : String → Option Json) :
    Option String → List Passenger.Msg :=
  streamHandler fromStr Passenger.TcpReceiver.receive

def Passenger.DriverLine.message : DriverLine → String × Json
  | .requestRide id origin destination =>
    ("request_ride", .object [("id", toValue id), ("origin", toValue origin),
      ("destination", toValue destination)])
  | .reconnectDriver position => ("reconnect_driver", .object [("position", toValue position)])
  | .recover idPassenger => ("recover", .object [("id_passenger", toValue idPassenger)])

def Passenger.DriverLine.InRange : DriverLine → Prop
  | .requestRide id origin destination => Fits id ∧ Fits origin ∧ Fits destination
  | .reconnectDriver position => Fits position
  | .recover idPassenger => Fits idPassenger

/-- What the `PassengerConnection` with the number `addr` sends its driver for a message. -/
def Driver.PassengerConnection.receive (addr : ℕ) (messageName : String) (payload : Json) :
    Except DeserializationError (List Driver.Msg) :=
  if messageName = "request_ride" then do
    let idPassenger ← deserializeField ℕ payload "id"
    let origin ← deserializeField Position payload "origin"
    let destination ← deserializeField Position payload "destination"
    return [.requestRide { idPassenger, origin, destination, addr }]
  else if messageName = "recover" then do
    let idPassenger ← deserializeField ℕ payload "id_passenger"
    return [.passengerRecover idPassenger addr]
  else if messageName = "reconnect_driver" then do
    let position ← deserializeField Position payload "position"
    return [.reconnectPassenger addr position]
  else
    return []

/-- `StreamHandler for PassengerConnection`. -/
def Driver.PassengerConnection.line (fromStr : String → Option Json) (addr : ℕ) :
    Option String → List Driver.Msg :=
  streamHandler fromStr (Driver.PassengerConnection.receive addr)

/-! ## Lines between a passenger and the gateway -/

def Passenger.GatewayLine.message : GatewayLine → String × Json
  | .authorizePayment => ("AuthorizePayment", .object [])
  | .confirmPayment name => ("ConfirmPayment", .object [("name", toValue name)])

/-- A line of the gateway. -/
inductive Gateway.PassengerLine where
  | paymentAuthorizationStatus (isAuthorized : Bool)
  | pagoConfirmado
deriving DecidableEq, Repr

def Gateway.PassengerLine.message : PassengerLine → String × Json
  | .paymentAuthorizationStatus isAuthorized =>
    ("PaymentAuthorizationStatus", .object [("is_authorized", toValue isAuthorized)])
  | .pagoConfirmado => ("pago_confirmado", .null)

/-- What the gateway does for a line of a passenger: it logs who has paid, and answers. -/
inductive Gateway.Effect where
  | paymentReceived (name : String)
  | tcp (line : Gateway.PassengerLine)
deriving DecidableEq, Repr

/-- What a `TcpConnection` of the gateway does for a message, with `isAuthorized` what
    `authorize_payment` draws. -/
def Gateway.TcpConnection.receive (isAuthorized : Bool) (messageName : String) (payload : Json) :
    Except DeserializationError (List Gateway.Effect) :=
  if messageName = "AuthorizePayment" then
    return [.tcp (.paymentAuthorizationStatus isAuthorized)]
  else if messageName = "ConfirmPayment" then do
    let name ← deserializeField String payload "name"
    return [.paymentReceived name, .tcp .pagoConfirmado]
  else
    return []

/-- `StreamHandler for TcpConnection` of the gateway. -/
def Gateway.TcpConnection.line (fromStr : String → Option Json) (isAuthorized : Bool) :
    Option String → List Gateway.Effect :=
  streamHandler fromStr (Gateway.TcpConnection.receive isAuthorized)

/-- What the gateway does for a line of a passenger. -/
def Passenger.GatewayLine.effects (isAuthorized : Bool) : GatewayLine → List Gateway.Effect
  | .authorizePayment => [.tcp (.paymentAuthorizationStatus isAuthorized)]
  | .confirmPayment name => [.paymentReceived name, .tcp .pagoConfirmado]

/-- What a `GatewayConnection` does for a line of the gateway: it sends messages to its passenger,
    or logs that a payment is confirmed. -/
inductive Passenger.GatewayConnection.Effect where
  | passenger (m : Passenger.Msg)
  | paymentConfirmed

/-- What a `GatewayConnection` does for a message, with `passenger` whether it knows its passenger
    (`SetPassenger`). -/
def Passenger.GatewayConnection.receive (passenger : Bool) (messageName : String) (payload : Json) :
    Except DeserializationError (List Passenger.GatewayConnection.Effect) :=
  if messageName = "PaymentAuthorizationStatus" then do
    let isAuthorized ← deserializeField Bool payload "is_authorized"
    if passenger then
      return (paymentAuthorizationStatus isAuthorized).map .passenger
    else
      return []
  else if messageName = "pago_confirmado" then
    return [.paymentConfirmed]
  else
    return []

/-- `StreamHandler for GatewayConnection`. -/
def Passenger.GatewayConnection.line (fromStr : String → Option Json) (passenger : Bool) :
    Option String → List Passenger.GatewayConnection.Effect :=
  streamHandler fromStr (Passenger.GatewayConnection.receive passenger)

/-- What a `GatewayConnection` does for a line of the gateway, once it knows its passenger. -/
def Gateway.PassengerLine.effects : PassengerLine → List Passenger.GatewayConnection.Effect
  | .paymentAuthorizationStatus isAuthorized =>
    (Passenger.paymentAuthorizationStatus isAuthorized).map .passenger
  | .pagoConfirmado => [.paymentConfirmed]

/-! ## Datagrams -/

/-- The message of an election datagram. -/
def ElectionMsg.message : ElectionMsg → String × Json
  | .election m =>
    ("election", .object [("disconnected_leader_id", toValue m.disconnectedLeaderId),
      ("server_ids", toValue m.serverIds), ("sequence_number", toValue m.sequenceNumber)])
  | .newLeader m =>
    ("new_leader", .object [("id_sender", toValue m.idSender), ("leader_id", toValue m.leaderId),
      ("sequence_number", toValue m.sequenceNumber)])

def ElectionMsg.InRange : ElectionMsg → Prop
  | .election m => Fits m.disconnectedLeaderId ∧ Fits m.serverIds ∧ Fits m.sequenceNumber
  | .newLeader m => Fits m.idSender ∧ Fits m.leaderId ∧ Fits m.sequenceNumber

/-- The text of an election datagram. -/
def ElectionMsg.serialized (toString : Json → String) (m : ElectionMsg) : String :=
  serializeMessage toString m.message.1 m.message.2

/-- What a receiver of datagrams hands to its server for an election datagram. -/
def ElectionMsg.toServerMsg : ElectionMsg → UdpReceiver.ServerMsg
  | .election m => .election m
  | .newLeader m => .newLeader m

end ConcuRide

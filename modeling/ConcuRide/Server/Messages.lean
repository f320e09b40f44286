import ConcuRide.Common

set_option autoImplicit false

/-! # Messages of the server process

The actix messages of `server/src/models/*.rs`, the lines a server writes on its TCP connections and
the election messages it sends as UDP datagrams. A serialized message (`serialized_msg: String`) is
kept as the value it was serialized from. -/

namespace ConcuRide

/-! ## Addresses of actors -/

/-- `Addr<TcpSender>`: the connection actor of the peer at the other end. Processes restart, so a
    server peer is named by its id and by which start of that server opened the connection. -/
inductive Addr where
  | server (id session : ℕ)
  | client (c : ℕ)
deriving DecidableEq, Repr

/-- `Addr<ServerConnection>`: a TCP connection opened to the given start of server `server`. -/
structure ServerConnection where
  server : ℕ
  session : ℕ
deriving DecidableEq, Repr

/-! ## Registry messages -/

/-- `models::driver::DriverInfo`. -/
structure DriverInfo where
  name : String
  socket : String
  id : ℕ
  position : Position
deriving DecidableEq, Repr

structure NewDriver where
  name : String
  socket : String
  position : Position
deriving DecidableEq, Repr

structure PassengerLogin where
  name : String
  addr : Addr
deriving DecidableEq, Repr

structure UpdateDriver where
  newPosition : Position
  name : String
deriving DecidableEq, Repr

structure BusyDriver where
  name : String
deriving DecidableEq, Repr

structure ReconnectDriver where
  idPassenger : ℕ
  socket : String
  name : String
deriving DecidableEq, Repr

structure UpdateDriverSocket where
  socket : String
  name : String
deriving DecidableEq, Repr

/-! ## Messages between the leader and its replicas -/

structure NewServerConnection where
  addr : Addr
  socket : String
  id : ℕ
deriving DecidableEq, Repr

/-- The state a leader sends to a replica in a `pong`. -/
structure UpdateNetworkState where
  idsCount : ℕ
  drivers : HashMap String DriverInfo
  busyDrivers : HashMap String DriverInfo
  passengers : HashMap String ℕ
  udpSocketsReplicas : HashMap ℕ String
  disconnectedServers : List ℕ

structure SetLeader where
  idLeader : ℕ
  leaderConnection : ServerConnection
deriving DecidableEq, Repr

/-! ## Election messages -/

structure Election where
  disconnectedLeaderId : ℕ
  serverIds : List ℕ
  sequenceNumber : ℕ
deriving DecidableEq, Repr

structure NewLeader where
  idSender : ℕ
  leaderId : ℕ
  sequenceNumber : ℕ
deriving DecidableEq, Repr

/-- A message one server sends to its neighbour and repeats until it is acknowledged. -/
inductive ElectionMsg where
  | election (m : Election)
  | newLeader (m : NewLeader)
deriving DecidableEq, Repr

def ElectionMsg.sequenceNumber : ElectionMsg → ℕ
  | .election m => m.sequenceNumber
  | .newLeader m => m.sequenceNumber

@[simp] theorem ElectionMsg.sequenceNumber_election (m : Election) :
    (ElectionMsg.election m).sequenceNumber = m.sequenceNumber := rfl

@[simp] theorem ElectionMsg.sequenceNumber_newLeader (m : NewLeader) :
    (ElectionMsg.newLeader m).sequenceNumber = m.sequenceNumber := rfl

structure WaitForNeighborAck where
  serializedMsg : ElectionMsg
  neighborId : ℕ
  sequenceNumber : ℕ
deriving DecidableEq, Repr

structure CheckIfNeighborAcked where
  neighborId : ℕ
  serializedMsg : ElectionMsg
  sequenceNumber : ℕ
deriving DecidableEq, Repr

structure NeighborAck where
  id : ℕ
  message : ElectionMsg
  sequenceNumber : ℕ
deriving DecidableEq, Repr

/-! ## The mailbox of the server actor -/

/-- A message in the mailbox of the `Server` actor (`Stop`, which only a test sends, is left
    out). -/
inductive Msg where
  | newDriver (m : NewDriver)
  | getDrivers (addr : Addr)
  | passengerLogin (m : PassengerLogin)
  | updateDriver (m : UpdateDriver)
  | busyDriver (m : BusyDriver)
  | reconnectDriver (m : ReconnectDriver)
  | updateDriverSocket (m : UpdateDriverSocket)
  | newServerConnection (m : NewServerConnection)
  | ping
  | pong (addr : Addr)
  | updateNetworkState (m : UpdateNetworkState)
  | setLeader (m : SetLeader)
  | sendLeaderId (addr : String)
  | startElection
  | waitForNeighborAck (m : WaitForNeighborAck)
  | checkIfNeighborAcked (m : CheckIfNeighborAcked)
  | election (m : Election)
  | newLeader (m : NewLeader)
  | neighborAck (m : NeighborAck)
  | connectToServer

/-- Messages that reach a server from outside the group of servers or from its own timers: the
    lines its `TcpSender` actors read, the periodic `Ping` and a test's `get_leader`. -/
def Msg.isExternal : Msg → Bool
  | .newDriver _ | .getDrivers _ | .passengerLogin _ | .updateDriver _ | .busyDriver _
  | .reconnectDriver _ | .newServerConnection _ | .ping | .pong _ | .sendLeaderId _ => true
  | _ => false

/-- The message an `UdpReceiver` hands to its server for a datagram. -/
def ElectionMsg.toMsg : ElectionMsg → Msg
  | .election m => .election m
  | .newLeader m => .newLeader m

/-! ## What a handler emits -/

/-- A line a server writes on the TCP connection of a client or of a replica. -/
inductive Line where
  | drivers (driversInfo : List DriverInfo)
  | identificador (id : ℕ)
  | reconnectDriver (socket : String)
  | pong (state : UpdateNetworkState)

/-- Whatever a handler sends: to its own mailbox (`_ctx.address().try_send`), as a datagram to the
    UDP address of a server (`get_address`), on a TCP connection, to its connection with the leader,
    or by starting to listen for TCP connections. -/
inductive Effect where
  | trySend (m : Msg)
  | udp (dst : ℕ) (m : ElectionMsg)
  | udpLeaderId (addr : String) (id : ℕ)
  | tcp (addr : Addr) (line : Line)
  | pingLeader (c : ServerConnection)
  | listen

end ConcuRide

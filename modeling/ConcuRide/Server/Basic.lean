import ConcuRide.Server.Messages

set_option autoImplicit false

/-! # The server actor

The state of `server/src/server.rs`, the two ways `main.rs` starts it, and the choice of the next
neighbour on the ring. -/

namespace ConcuRide

/-- `struct Server`. Of `udp_sender` only its presence matters. -/
structure Server where
  id : ℕ
  idLeader : ℕ
  imLeader : Bool
  drivers : HashMap String DriverInfo
  busyDrivers : HashMap String DriverInfo
  passengers : HashMap String ℕ
  passengersAddress : HashMap ℕ Addr
  udpSocketsReplicas : HashMap ℕ String
  servers : HashMap ℕ Addr
  idsCount : ℕ
  udpSender : Bool
  leaderConnection : Option ServerConnection
  disconnectedServers : List ℕ
  receivedNeighborAck : Bool
  electionOnCourse : Bool
  actualNeighborId : ℕ
  sequenceNumber : ℕ
  messageReceivedAck : HashMap ℕ Bool

/-! ## The ring -/

/-- The neighbour of a server on the ring `1..=N`. -/
def getNeighborId (N id : ℕ) : ℕ :=
  if id = N then 1 else id + 1

namespace Server

/-- The `loop` of `update_neighbor`, with `remaining` the checks left before `count` reaches
    `MAX_SERVERS`: the neighbour it stops at, and whether it found one. -/
def scanNeighbors (N : ℕ) (s : Server) : ℕ → ℕ → ℕ × Bool
  | 0, p => (p, false)
  | remaining + 1, p =>
    if p ∉ s.disconnectedServers ∧ p ≠ s.id then (p, true)
    else scanNeighbors N s remaining (getNeighborId N p)

/-- The value `update_neighbor` leaves in `actual_neighbor_id`, and its result. -/
def nextNeighbor (N : ℕ) (s : Server) (neighborId : ℕ) : ℕ × Bool :=
  if s.actualNeighborId ∉ s.disconnectedServers then (s.actualNeighborId, true)
  else s.scanNeighbors N N (getNeighborId N neighborId)

/-- `Server::update_neighbor`. -/
def updateNeighbor (N : ℕ) (s : Server) (neighborId : ℕ) : Server × Bool :=
  ({ s with actualNeighborId := (s.nextNeighbor N neighborId).1 }, (s.nextNeighbor N neighborId).2)

/-! ## Start-up -/

/-- The server `servidor_lider(id)` starts: the leader, without a UDP socket. -/
def lider (N id : ℕ) : Server where
  id := id
  idLeader := id
  imLeader := true
  drivers := ∅
  busyDrivers := ∅
  passengers := ∅
  passengersAddress := ∅
  udpSocketsReplicas := ∅
  servers := ∅
  idsCount := 0
  udpSender := false
  leaderConnection := none
  disconnectedServers := []
  receivedNeighborAck := false
  electionOnCourse := false
  actualNeighborId := getNeighborId N id
  sequenceNumber := 0
  messageReceivedAck := ∅

/-- The server `servidor_replica(id)` starts, before it has dialled anybody. -/
def replica (N id : ℕ) : Server :=
  { lider N id with idLeader := 1, imLeader := false, udpSender := true }

end Server

/-- The search of `servidor_replica` for a server to connect to: the server reached and the id it
    stores as `leader_id`. It tries server 1 first (server 2 if it is server 1 itself), keeping
    `leader_id = 1`, and then the others from `MAX_SERVERS` down. -/
def dialLeader (N : ℕ) (listening : ℕ → Bool) (id : ℕ) : Option (ℕ × ℕ) :=
  let first := if 1 = id then 1 + 1 else 1
  if listening first then some (first, 1)
  else (connectToServerLeader (fun k => decide (k ≠ id) && listening k) N).map fun k => (k, k)

end ConcuRide

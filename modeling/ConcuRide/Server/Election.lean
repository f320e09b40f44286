import ConcuRide.Server.Basic

set_option autoImplicit false

/-! # Handlers of the leader election

The ring election: a replica that loses its leader sends `Election` to its neighbour, every server
on the way appends its id, and the server the message returns to announces the greatest id with
`NewLeader`. Every datagram is waited for and repeated to the next neighbour until it is
acknowledged. A handler that `expect`s the missing UDP sender returns `none`. -/

namespace ConcuRide.Server

/-- `Handler<Ping>`, with `connected` what `leader_connection.connected()` answers. -/
def ping (s : Server) (connected : Bool) : Server × List Effect :=
  match s.leaderConnection with
  | none => (s, [])
  | some leaderConnection =>
    if s.imLeader then (s, [])
    else if connected then (s, [.pingLeader leaderConnection])
    else
      ({ s with leaderConnection := none, electionOnCourse := true }, [.trySend .startElection])

/-- `Handler<SetLeader>`. -/
def setLeader (s : Server) (msg : SetLeader) : Server × List Effect :=
  ({ s with idLeader := msg.idLeader, leaderConnection := some msg.leaderConnection }, [])

/-- "No hay replicas conectadas, soy el lider": the `NewLeader` a server without neighbours sends
    itself. -/
def declareSelf (s : Server) : Server × List Effect :=
  ({ s with sequenceNumber := s.sequenceNumber + 1 },
    [.trySend (.newLeader
      { idSender := s.id, leaderId := s.id, sequenceNumber := s.sequenceNumber })])

/-- The `WaitForNeighborAck` that follows every datagram sent to the neighbour. -/
def waitForAck (s : Server) (msg : ElectionMsg) (sequenceNumber : ℕ) : Effect :=
  .trySend (.waitForNeighborAck
    { serializedMsg := msg, neighborId := s.actualNeighborId, sequenceNumber := sequenceNumber })

/-- The datagram to the neighbour, where a missing `udp_sender` is skipped. -/
def sendIfUdp (s : Server) (msg : ElectionMsg) : List Effect :=
  if s.udpSender then [.udp s.actualNeighborId msg] else []

/-- `Handler<StartElection>`. -/
def startElection (N : ℕ) (s : Server) : Server × List Effect :=
  let s := { s with disconnectedServers := s.disconnectedServers ++ [s.idLeader] }
  let (s, neighborsConnected) := s.updateNeighbor N s.actualNeighborId
  if !neighborsConnected then s.declareSelf
  else
    let election : Election :=
      { serverIds := [s.id]
        disconnectedLeaderId := s.idLeader
        sequenceNumber := s.sequenceNumber }
    ({ s with sequenceNumber := s.sequenceNumber + 1 + 1 },
      s.sendIfUdp (.election election) ++
        [s.waitForAck (.election election) election.sequenceNumber])

/-- `Handler<WaitForNeighborAck>`. -/
def waitForNeighborAck (s : Server) (msg : WaitForNeighborAck) : Server × List Effect :=
  (s, [.trySend (.checkIfNeighborAcked
    { neighborId := msg.neighborId
      serializedMsg := msg.serializedMsg
      sequenceNumber := msg.sequenceNumber })])

/-- `Handler<CheckIfNeighborAcked>`. -/
def checkIfNeighborAcked (N : ℕ) (s : Server) (msg : CheckIfNeighborAcked) :
    Server × List Effect :=
  if msg.sequenceNumber ∈ s.messageReceivedAck then ({ s with receivedNeighborAck := false }, [])
  else
    let s := { s with disconnectedServers := s.disconnectedServers ++ [msg.neighborId] }
    let (s, neighborsConnected) := s.updateNeighbor N s.actualNeighborId
    if !neighborsConnected then s.declareSelf
    else
      (s, s.sendIfUdp msg.serializedMsg ++ [s.waitForAck msg.serializedMsg msg.sequenceNumber])

/-- The greatest id of the list, as the loop over `server_ids` finds it. -/
def greatestId (serverIds : List ℕ) : ℕ :=
  serverIds.foldl (fun leaderId id => if id > leaderId then id else leaderId) 0

/-- The part of `Handler<Election>` before `update_neighbor`: the named leader is marked as
    disconnected, and the connection is dropped if it was to that leader. -/
def markDisconnected (s : Server) (leader : ℕ) : Server :=
  { s with
    disconnectedServers := s.disconnectedServers ++ [leader]
    leaderConnection := if s.idLeader = leader then none else s.leaderConnection }

/-- `Handler<Election>`. -/
def election (N : ℕ) (s : Server) (msg : Election) : Option (Server × List Effect) :=
  let s := s.markDisconnected msg.disconnectedLeaderId
  let (s, neighborsConnected) := s.updateNeighbor N s.actualNeighborId
  if !neighborsConnected then some s.declareSelf
  else if !s.udpSender then none
  else if s.id ∈ msg.serverIds then
    let leaderId := greatestId msg.serverIds
    let newLeader : NewLeader :=
      { leaderId := leaderId, idSender := s.id, sequenceNumber := s.sequenceNumber }
    let s := { s with idLeader := leaderId, sequenceNumber := s.sequenceNumber + 1 }
    some (s, [.udp s.actualNeighborId (.newLeader newLeader),
      s.waitForAck (.newLeader newLeader) newLeader.sequenceNumber])
  else
    let election : Election :=
      { serverIds := msg.serverIds ++ [s.id]
        disconnectedLeaderId := msg.disconnectedLeaderId
        sequenceNumber := s.sequenceNumber }
    let s := { s with sequenceNumber := s.sequenceNumber + 1 }
    some (s, [.udp s.actualNeighborId (.election election),
      s.waitForAck (.election election) election.sequenceNumber])

/-- The first part of `Handler<NewLeader>`: the announced leader replaces the old one, and a server
    that is announced starts to listen for connections. -/
def acceptLeader (s : Server) (leaderId : ℕ) : Server × List Effect :=
  if leaderId = s.id ∧ s.imLeader = false then
    ({ s with idLeader := leaderId, imLeader := true }, [.listen])
  else ({ s with idLeader := leaderId }, [])

/-- The second part of `Handler<NewLeader>`: the announcement of another server is passed on. -/
def passOn (N : ℕ) (s : Server) (msg : NewLeader) : Option (Server × List Effect) :=
  if msg.idSender = s.id then some (s, [])
  else
    let (s, neighborsConnected) := s.updateNeighbor N s.actualNeighborId
    if !neighborsConnected then some s.declareSelf
    else if !s.udpSender then none
    else
      some (s, [.udp s.actualNeighborId (.newLeader msg),
        s.waitForAck (.newLeader msg) msg.sequenceNumber])

/-- The last part of `Handler<NewLeader>`: a replica without a leader connects to the new one. -/
def connectIfNeeded (s : Server) (leaderId : ℕ) : List Effect :=
  if leaderId ≠ s.id ∧ s.leaderConnection = none then [.trySend .connectToServer] else []

/-- `Handler<NewLeader>`. -/
def newLeader (N : ℕ) (s : Server) (msg : NewLeader) : Option (Server × List Effect) :=
  let (s, listening) := s.acceptLeader msg.leaderId
  (s.passOn N msg).map fun (s, sent) => (s, listening ++ sent ++ s.connectIfNeeded msg.leaderId)

/-- `Handler<NeighborAck>`. -/
def neighborAck (s : Server) (msg : NeighborAck) : Server × List Effect :=
  ({ s with
      disconnectedServers := s.disconnectedServers.filter (fun id => id ≠ msg.id)
      messageReceivedAck := s.messageReceivedAck.insert msg.sequenceNumber true }, [])

/-- `Handler<ConnectToServer>`, with `stream` the connection `create_tcp_connection` opened, if
    any. -/
def connectToServer (s : Server) (stream : Option ServerConnection) : Server × List Effect :=
  match stream with
  | none => (s, [])
  | some serverConnection =>
    ({ s with leaderConnection := some serverConnection, electionOnCourse := false }, [])

/-- `Handler<SendLeaderId>`. -/
def sendLeaderId (s : Server) (addr : String) : Option (Server × List Effect) :=
  if s.udpSender then some (s, [.udpLeaderId addr s.idLeader]) else none

end ConcuRide.Server

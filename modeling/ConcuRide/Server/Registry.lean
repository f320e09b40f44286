import ConcuRide.Server.Basic

set_option autoImplicit false

/-! # Handlers of the registry

The leader's handlers for drivers, passengers and replicas: who is registered under which id, who is
free and who is busy, and the snapshots of that state the replicas get. Each handler returns the new
state and what it sends. -/

namespace ConcuRide.Server

/-- `Handler<NewDriver>`: a known driver only gets its socket updated, later. -/
def newDriver (s : Server) (msg : NewDriver) : Server × List Effect :=
  if msg.name ∈ s.drivers then
    (s, [.trySend (.updateDriverSocket { name := msg.name, socket := msg.socket })])
  else if msg.name ∈ s.busyDrivers then
    (s, [.trySend (.updateDriverSocket { name := msg.name, socket := msg.socket })])
  else
    let id := s.idsCount + 1
    let driverInfo : DriverInfo :=
      { socket := msg.socket, position := msg.position, name := msg.name, id := id }
    ({ s with idsCount := id, drivers := s.drivers.insert msg.name driverInfo }, [])

/-- `Handler<GetDrivers>`. -/
def getDrivers (s : Server) (addr : Addr) : Server × List Effect :=
  (s, [.tcp addr (.drivers s.drivers.values)])

/-- `Handler<PassengerLogin>`. -/
def passengerLogin (s : Server) (msg : PassengerLogin) : Server × List Effect :=
  match s.passengers.lookup msg.name with
  | some id =>
    ({ s with passengersAddress := s.passengersAddress.insert id msg.addr },
      [.tcp msg.addr (.identificador id)])
  | none =>
    let id := s.idsCount + 1
    ({ s with
        idsCount := id
        passengers := s.passengers.insert msg.name id
        passengersAddress := s.passengersAddress.insert id msg.addr },
      [.tcp msg.addr (.identificador id)])

/-- `Handler<UpdateDriver>`: a busy driver becomes free at its new position. -/
def updateDriver (s : Server) (msg : UpdateDriver) : Server × List Effect :=
  match s.busyDrivers.lookup msg.name with
  | none => (s, [])
  | some driver =>
    ({ s with
        busyDrivers := s.busyDrivers.erase msg.name
        drivers := s.drivers.insert msg.name { driver with position := msg.newPosition } }, [])

/-- `Handler<BusyDriver>`: a free driver becomes busy. -/
def busyDriver (s : Server) (msg : BusyDriver) : Server × List Effect :=
  match s.drivers.lookup msg.name with
  | none => (s, [])
  | some driver =>
    ({ s with
        drivers := s.drivers.erase msg.name
        busyDrivers := s.busyDrivers.insert msg.name driver }, [])

/-- `drivers.get_mut(name)` and the new socket. -/
def setSocket (m : HashMap String DriverInfo) (name socket : String) : HashMap String DriverInfo :=
  match m.lookup name with
  | none => m
  | some driverInfo => m.insert name { driverInfo with socket := socket }

/-- `Handler<UpdateDriverSocket>`. -/
def updateDriverSocket (s : Server) (msg : UpdateDriverSocket) : Server × List Effect :=
  ({ s with
      drivers := setSocket s.drivers msg.name msg.socket
      busyDrivers := setSocket s.busyDrivers msg.name msg.socket }, [])

/-- `Handler<ReconnectDriver>`. -/
def reconnectDriver (s : Server) (msg : ReconnectDriver) : Server × List Effect :=
  let update : Effect :=
    .trySend (.updateDriverSocket { name := msg.name, socket := msg.socket })
  match s.passengersAddress.lookup msg.idPassenger with
  | some addr => (s, [update, .tcp addr (.reconnectDriver msg.socket)])
  | none => (s, [update])

/-- `Handler<NewServerConnection>`: a replica joins and every replica is sent the new state. -/
def newServerConnection (s : Server) (msg : NewServerConnection) : Server × List Effect :=
  let s := { s with
    disconnectedServers := s.disconnectedServers.filter (fun x => x ≠ msg.id)
    servers := s.servers.insert msg.id msg.addr
    udpSocketsReplicas := s.udpSocketsReplicas.insert msg.id msg.socket }
  (s, s.servers.values.map fun addr => .trySend (.pong addr))

/-- The state `Handler<Pong>` sends. -/
def networkState (s : Server) : UpdateNetworkState where
  idsCount := s.idsCount
  drivers := s.drivers
  busyDrivers := s.busyDrivers
  passengers := s.passengers
  udpSocketsReplicas := s.udpSocketsReplicas
  disconnectedServers := s.disconnectedServers

/-- `Handler<Pong>`. -/
def pong (s : Server) (addr : Addr) : Server × List Effect :=
  (s, [.tcp addr (.pong s.networkState)])

/-- `Handler<UpdateNetworkState>`. -/
def updateNetworkState (s : Server) (msg : UpdateNetworkState) : Server × List Effect :=
  ({ s with
      drivers := msg.drivers
      busyDrivers := msg.busyDrivers
      passengers := msg.passengers
      udpSocketsReplicas := msg.udpSocketsReplicas
      idsCount := msg.idsCount
      disconnectedServers := msg.disconnectedServers }, [])

end ConcuRide.Server

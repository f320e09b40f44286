import ConcuRide.Wire.Lines

set_option autoImplicit false

/-! # What is written is read

Whatever sequence of lines one process writes on a TCP connection, the process at the other end
handles the same sequence of messages with the same fields. A field is read under the name and at
the type it is written with, and a line is read as one line: both can only be seen by looking at
both ends. -/

namespace ConcuRide

open Lib

variable {codec : JsonCodec} {payload : Json}

/-! ## Lines of a connection -/

theorem lines_written (codec : JsonCodec) {messages : List (String × Json)}
    (h : ∀ m ∈ messages, m.2.Valid) :
    lines (written codec.toString messages) =
      messages.map fun m => some (serializeMessage codec.toString m.1 m.2) := by
  have hflat : written codec.toString messages =
      (messages.map fun m => serializeMessage codec.toString m.1 m.2).flatMap
        fun text => utf8 (text ++ "\n") := by
    rw [List.flatMap_map]
    rfl
  rw [hflat, lines_flatMap, List.map_map]
  · rfl
  · intro text htext
    obtain ⟨m, hm, rfl⟩ := List.mem_map.1 htext
    exact codec.one_line _ (valid_messageValue m.1 (h m hm))

/-- Lines are read one by one, each as its name and a payload that is the same. -/
theorem forall₂_lines_written {ι : Type} {message : ι → String × Json}
    {Read : ι → Option String → Prop} {sent : List ι} (hvalid : ∀ l ∈ sent, (message l).2.Valid)
    (hread : ∀ l ∈ sent, ∀ text payload,
      splitMessage codec.fromStr text = ((message l).1, payload) → (message l).2.Same payload →
        Read l (some text)) :
    List.Forall₂ Read sent (lines (written codec.toString (sent.map message))) := by
  rw [lines_written codec (by simpa using hvalid), List.map_map, List.forall₂_map_right_iff,
    List.forall₂_same]
  intro l hl
  obtain ⟨payload, hsplit, hsame⟩ :=
    splitMessage_serializeMessage codec (message l).1 (hvalid l hl)
  exact hread l hl _ payload hsplit hsame

/-- A `StreamHandler` that reads every single line reads all of them. -/
theorem map_streamHandler {ι β : Type} {message : ι → String × Json}
    {receive : String → Json → Except DeserializationError (List β)} {out : ι → List β}
    {sent : List ι} (hvalid : ∀ l ∈ sent, (message l).2.Valid)
    (hreceive : ∀ l ∈ sent, ∀ payload, (message l).2.Same payload →
      receive (message l).1 payload = .ok (out l)) :
    (lines (written codec.toString (sent.map message))).map (streamHandler codec.fromStr receive) =
      sent.map out := by
  have hlines : List.Forall₂ (fun l read => streamHandler codec.fromStr receive read = out l) sent
      (lines (written codec.toString (sent.map message))) := by
    refine forall₂_lines_written hvalid fun l hl text payload hsplit hsame => ?_
    rw [streamHandler, hsplit]
    simp only [hreceive l hl payload hsame]
  rw [← List.forall₂_eq_eq_eq, List.forall₂_map_left_iff, List.forall₂_map_right_iff]
  exact hlines.flip

theorem fits_string (s : String) : Fits s := trivial

theorem fits_bool (b : Bool) : Fits b := trivial

theorem ok_bind {ε α β : Type} (a : α) (f : α → Except ε β) : (Except.ok a >>= f) = f a := rfl

/-! ## Lines for a leader -/

theorem Driver.ServerLine.valid {l : ServerLine} (hl : l.InRange) : l.message.2.Valid := by
  cases l <;> rw [ServerLine.InRange] at hl <;>
    exact valid_object (by simp [valid_toValue, fits_string, hl])

theorem TcpSender.receive_driver (addr : Addr) {l : Driver.ServerLine} (hl : l.InRange)
    (hsame : l.message.2.Same payload) :
    TcpSender.receive addr l.message.1 payload = .ok [l.toMsg] := by
  cases l with
  | newDriver socket name position =>
      have hsocket : deserializeField String payload "socket" = .ok socket :=
        deserializeField_object socket hsame rfl (fits_string socket)
      have hname : deserializeField String payload "name" = .ok name :=
        deserializeField_object name hsame rfl (fits_string name)
      have hposition : deserializeField Position payload "position" = .ok position :=
        deserializeField_object position hsame rfl hl
      simp [receive, Driver.ServerLine.message, Driver.ServerLine.toMsg, ok_bind, hsocket, hname,
        hposition]
  | busyDriver name =>
      have hname : deserializeField String payload "name" = .ok name :=
        deserializeField_object name hsame rfl (fits_string name)
      simp [receive, Driver.ServerLine.message, Driver.ServerLine.toMsg, hname]
  | availableDriver name position =>
      have hname : deserializeField String payload "name" = .ok name :=
        deserializeField_object name hsame rfl (fits_string name)
      have hposition : deserializeField Position payload "position" = .ok position :=
        deserializeField_object position hsame rfl hl
      simp [receive, Driver.ServerLine.message, Driver.ServerLine.toMsg, ok_bind, hname, hposition]
  | reconnectDriver idPassenger socket name =>
      have hid : deserializeField ℕ payload "id_passenger" = .ok idPassenger :=
        deserializeField_object idPassenger hsame rfl hl
      have hsocket : deserializeField String payload "socket" = .ok socket :=
        deserializeField_object socket hsame rfl (fits_string socket)
      have hname : deserializeField String payload "name" = .ok name :=
        deserializeField_object name hsame rfl (fits_string name)
      simp [receive, Driver.ServerLine.message, Driver.ServerLine.toMsg, ok_bind, hid, hsocket,
        hname]

theorem Passenger.ServerLine.valid {l : ServerLine} (hl : l.InRange) : l.message.2.Valid := by
  cases l <;> rw [ServerLine.InRange] at hl <;>
    exact valid_object (by simp [valid_toValue, fits_string, hl])

theorem TcpSender.receive_passenger (addr : Addr) {l : Passenger.ServerLine}
    (hsame : l.message.2.Same payload) :
    TcpSender.receive addr l.message.1 payload = .ok [l.toMsg addr] := by
  cases l with
  | getDrivers id =>
      simp [receive, Passenger.ServerLine.message, Passenger.ServerLine.toMsg, pure, Except.pure]
  | login name =>
      have hname : deserializeField String payload "name" = .ok name :=
        deserializeField_object name hsame rfl (fits_string name)
      simp [receive, Passenger.ServerLine.message, Passenger.ServerLine.toMsg, hname]

theorem ReplicaLine.valid {l : ReplicaLine} (hl : l.InRange) : l.message.2.Valid := by
  cases l with
  | newReplica id socket =>
      rw [InRange] at hl
      exact valid_object (by simp [valid_toValue, fits_string, hl])
  | ping => exact .null

theorem TcpSender.receive_replica (addr : Addr) {l : ReplicaLine} (hl : l.InRange)
    (hsame : l.message.2.Same payload) :
    TcpSender.receive addr l.message.1 payload = .ok [l.toMsg addr] := by
  cases l with
  | newReplica id socket =>
      have hid : deserializeField ℕ payload "id" = .ok id :=
        deserializeField_object id hsame rfl hl
      have hsocket : deserializeField String payload "socket" = .ok socket :=
        deserializeField_object socket hsame rfl (fits_string socket)
      simp [receive, ReplicaLine.message, ReplicaLine.toMsg, ok_bind, hid, hsocket]
  | ping => simp [receive, ReplicaLine.message, ReplicaLine.toMsg, pure, Except.pure]

/-! ## Lines of a leader -/

theorem DriverInfo.valid {d : DriverInfo} (hd : Fits d) : (toValue d).Valid :=
  valid_object (by simp [valid_toValue, fits_string, hd.1, hd.2])

/-- The replicas read all of a driver. -/
instance : LawfulValue DriverInfo where
  readsAs.valid _ hd := DriverInfo.valid hd
  readsAs.read d v hd hsame := by
    have hname : (v.field? "name").bind fromValue = some d.name :=
      field?_bind_fromValue d.name hsame rfl (fits_string d.name)
    have hsocket : (v.field? "socket").bind fromValue = some d.socket :=
      field?_bind_fromValue d.socket hsame rfl (fits_string d.socket)
    have hid : (v.field? "id").bind fromValue = some d.id :=
      field?_bind_fromValue d.id hsame rfl hd.1
    have hposition : (v.field? "position").bind fromValue = some d.position :=
      field?_bind_fromValue d.position hsame rfl hd.2
    refine ⟨d, ?_, rfl⟩
    show (do
      let name ← (v.field? "name").bind fromValue
      let socket ← (v.field? "socket").bind fromValue
      let id ← (v.field? "id").bind fromValue
      let position ← (v.field? "position").bind fromValue
      return { name, socket, id, position }) = some d
    rw [hname, hsocket, hid, hposition]
    rfl

/-- A passenger reads the socket and the position of a driver. -/
theorem readsAs_forPassenger :
    ReadsAs fun (d : DriverInfo) (d' : Passenger.DriverInfo) => d.forPassenger = d' where
  valid _ hd := DriverInfo.valid hd
  read d v hd hsame := by
    have hsocket : (v.field? "socket").bind fromValue = some d.socket :=
      field?_bind_fromValue d.socket hsame rfl (fits_string d.socket)
    have hposition : (v.field? "position").bind fromValue = some d.position :=
      field?_bind_fromValue d.position hsame rfl hd.2
    refine ⟨d.forPassenger, ?_, rfl⟩
    show (do
      let socket ← (v.field? "socket").bind fromValue
      let position ← (v.field? "position").bind fromValue
      return { socket, position }) = some d.forPassenger
    rw [hsocket, hposition]
    rfl

theorem UpdateNetworkState.valid {state : UpdateNetworkState} (h : state.InRange) :
    (Line.pong state).message.2.Valid := by
  obtain ⟨hids, hdrivers, hbusy, hpassengers, hsockets, hservers⟩ := h
  have hdrivers : (toValue state.drivers).Valid := readsAs_map.valid _ hdrivers
  have hbusy : (toValue state.busyDrivers).Valid := readsAs_map.valid _ hbusy
  have hpassengers : (toValue state.passengers).Valid := readsAs_map.valid _ hpassengers
  have hsockets : (toValue state.udpSocketsReplicas).Valid := readsAs_map.valid _ hsockets
  exact valid_object (by
    simp [valid_toValue, hids, hdrivers, hbusy, hpassengers, hsockets, hservers])

/-- A replica reads the state of its leader. -/
theorem readPong_of_same {state : UpdateNetworkState} (h : state.InRange)
    (hsame : (Line.pong state).message.2.Same payload) :
    ∃ state', LeaderConnection.readPong payload = .ok state' ∧ state.Same state' := by
  obtain ⟨hids, hdrivers, hbusy, hpassengers, hsockets, hservers⟩ := h
  have hids : deserializeField ℕ payload "ids_count" = .ok state.idsCount :=
    deserializeField_object state.idsCount hsame rfl hids
  obtain ⟨drivers, hdrivers, hdrivers'⟩ :
      ∃ m, deserializeField (HashMap String DriverInfo) payload "drivers" = .ok m ∧
        ∀ name, m.lookup name = state.drivers.lookup name :=
    readsAs_map.field_object hsame rfl hdrivers
  obtain ⟨busyDrivers, hbusy, hbusy'⟩ :
      ∃ m, deserializeField (HashMap String DriverInfo) payload "busy_drivers" = .ok m ∧
        ∀ name, m.lookup name = state.busyDrivers.lookup name :=
    readsAs_map.field_object hsame rfl hbusy
  obtain ⟨passengers, hpassengers, hpassengers'⟩ :
      ∃ m, deserializeField (HashMap String ℕ) payload "passengers" = .ok m ∧
        ∀ name, m.lookup name = state.passengers.lookup name :=
    readsAs_map.field_object hsame rfl hpassengers
  obtain ⟨sockets, hsockets, hsockets'⟩ :
      ∃ m, deserializeField (HashMap ℕ String) payload "udp_sockets_replicas" = .ok m ∧
        ∀ id, m.lookup id = state.udpSocketsReplicas.lookup id :=
    readsAs_map.field_object hsame rfl hsockets
  have hservers : deserializeField (List ℕ) payload "disconnected_servers" =
      .ok state.disconnectedServers :=
    deserializeField_object state.disconnectedServers hsame rfl hservers
  refine ⟨⟨state.idsCount, drivers, busyDrivers, passengers, sockets, state.disconnectedServers⟩,
    ?_, ⟨rfl, hdrivers', hbusy', hpassengers', hsockets', rfl⟩⟩
  simp [LeaderConnection.readPong, ok_bind, hids, hdrivers, hbusy, hpassengers, hsockets, hservers]

theorem Line.valid {l : Line} (hl : l.InRange) : l.message.2.Valid := by
  cases l with
  | drivers driversInfo =>
      have hdrivers : (toValue driversInfo).Valid := valid_toValue hl
      exact valid_object (by simp [hdrivers])
  | identificador id =>
      have hid : (toValue id).Valid := valid_toValue hl
      exact valid_object (by simp [hid])
  | reconnectDriver socket => exact valid_object (by simp [valid_toValue, fits_string])
  | pong state => exact UpdateNetworkState.valid hl

theorem Passenger.TcpReceiver.receive_leader {l : Line} (hl : l.InRange)
    (hsame : l.message.2.Same payload) : receive l.message.1 payload = .ok l.toPassenger := by
  cases l with
  | drivers driversInfo =>
      obtain ⟨driversInfo', hdrivers, hall⟩ :
          ∃ ds, deserializeField (List Passenger.DriverInfo) payload "drivers_info" = .ok ds ∧
            List.Forall₂ (fun d d' => d.forPassenger = d') driversInfo ds :=
        readsAs_forPassenger.list.field_object hsame rfl hl
      obtain rfl : driversInfo.map DriverInfo.forPassenger = driversInfo' := by
        rwa [← List.forall₂_eq_eq_eq, List.forall₂_map_left_iff]
      simp [receive, Line.message, Line.toPassenger, hdrivers]
  | identificador id =>
      have hid : deserializeField ℕ payload "id" = .ok id :=
        deserializeField_object id hsame rfl hl
      simp [receive, Line.message, Line.toPassenger, hid]
  | reconnectDriver socket =>
      have hsocket : deserializeField String payload "socket" = .ok socket :=
        deserializeField_object socket hsame rfl (fits_string socket)
      simp [receive, Line.message, Line.toPassenger, hsocket]
  | pong state => simp [receive, Line.message, Line.toPassenger, pure, Except.pure]

/-! ## Lines between a passenger and a driver -/

theorem Driver.PassengerLine.valid {l : PassengerLine} (hl : l.InRange) : l.message.2.Valid := by
  cases l with
  | no => exact .null
  | ok driverSocket => exact valid_object (by simp [valid_toValue, fits_string])
  | driverArrived => exact .null
  | recoverResponse pickedUp position endRide =>
      have hposition : (toValue position).Valid := valid_toValue hl
      exact valid_object (by simp [valid_toValue, fits_bool, hposition])

theorem Passenger.TcpReceiver.receive_driver {l : Driver.PassengerLine} (hl : l.InRange)
    (hsame : l.message.2.Same payload) : receive l.message.1 payload = .ok [l.toMsg] := by
  cases l with
  | no =>
      simp [receive, Driver.PassengerLine.message, Driver.PassengerLine.toMsg, pure, Except.pure]
  | ok driverSocket =>
      have hsocket : deserializeField String payload "driver_socket" = .ok driverSocket :=
        deserializeField_object driverSocket hsame rfl (fits_string driverSocket)
      simp [receive, Driver.PassengerLine.message, Driver.PassengerLine.toMsg, hsocket]
  | driverArrived =>
      simp [receive, Driver.PassengerLine.message, Driver.PassengerLine.toMsg, pure, Except.pure]
  | recoverResponse pickedUp position endRide =>
      have hpicked : deserializeField Bool payload "picked_up" = .ok pickedUp :=
        deserializeField_object pickedUp hsame rfl (fits_bool pickedUp)
      have hposition : deserializeField Position payload "position" = .ok position :=
        deserializeField_object position hsame rfl hl
      have hend : deserializeField Bool payload "end_ride" = .ok endRide :=
        deserializeField_object endRide hsame rfl (fits_bool endRide)
      simp [receive, Driver.PassengerLine.message, Driver.PassengerLine.toMsg, ok_bind, hpicked,
        hposition, hend]

theorem Passenger.DriverLine.valid {l : DriverLine} (hl : l.InRange) : l.message.2.Valid := by
  cases l with
  | requestRide id origin destination =>
      obtain ⟨hid, horigin, hdestination⟩ := hl
      exact valid_object (by simp [valid_toValue, hid, horigin, hdestination])
  | reconnectDriver position =>
      have hposition : (toValue position).Valid := valid_toValue hl
      exact valid_object (by simp [hposition])
  | recover idPassenger =>
      have hid : (toValue idPassenger).Valid := valid_toValue hl
      exact valid_object (by simp [hid])

theorem Driver.PassengerConnection.receive_passenger (addr : ℕ) {l : Passenger.DriverLine}
    (hl : l.InRange) (hsame : l.message.2.Same payload) :
    receive addr l.message.1 payload = .ok [l.toMsg addr] := by
  cases l with
  | requestRide id origin destination =>
      obtain ⟨hid, horigin, hdestination⟩ := hl
      have hid : deserializeField ℕ payload "id" = .ok id :=
        deserializeField_object id hsame rfl hid
      have horigin : deserializeField Position payload "origin" = .ok origin :=
        deserializeField_object origin hsame rfl horigin
      have hdestination : deserializeField Position payload "destination" = .ok destination :=
        deserializeField_object destination hsame rfl hdestination
      simp [receive, Passenger.DriverLine.message, Passenger.DriverLine.toMsg, ok_bind, hid,
        horigin, hdestination]
  | reconnectDriver position =>
      have hposition : deserializeField Position payload "position" = .ok position :=
        deserializeField_object position hsame rfl hl
      simp [receive, Passenger.DriverLine.message, Passenger.DriverLine.toMsg, hposition]
  | recover idPassenger =>
      have hid : deserializeField ℕ payload "id_passenger" = .ok idPassenger :=
        deserializeField_object idPassenger hsame rfl hl
      simp [receive, Passenger.DriverLine.message, Passenger.DriverLine.toMsg, hid]

/-! ## Lines between a passenger and the gateway -/

theorem Passenger.GatewayLine.valid (l : GatewayLine) : l.message.2.Valid := by
  cases l with
  | authorizePayment => exact valid_object (by simp)
  | confirmPayment name => exact valid_object (by simp [valid_toValue, fits_string])

theorem Gateway.TcpConnection.receive_passenger (isAuthorized : Bool) {l : Passenger.GatewayLine}
    (hsame : l.message.2.Same payload) :
    receive isAuthorized l.message.1 payload = .ok (l.effects isAuthorized) := by
  cases l with
  | authorizePayment =>
      simp [receive, Passenger.GatewayLine.message, Passenger.GatewayLine.effects, pure,
        Except.pure]
  | confirmPayment name =>
      have hname : deserializeField String payload "name" = .ok name :=
        deserializeField_object name hsame rfl (fits_string name)
      simp [receive, Passenger.GatewayLine.message, Passenger.GatewayLine.effects, hname]

theorem Gateway.PassengerLine.valid (l : PassengerLine) : l.message.2.Valid := by
  cases l with
  | paymentAuthorizationStatus isAuthorized =>
      exact valid_object (by simp [valid_toValue, fits_bool])
  | pagoConfirmado => exact .null

theorem Passenger.GatewayConnection.receive_gateway {l : Gateway.PassengerLine}
    (hsame : l.message.2.Same payload) : receive true l.message.1 payload = .ok l.effects := by
  cases l with
  | paymentAuthorizationStatus isAuthorized =>
      have hauthorized : deserializeField Bool payload "is_authorized" = .ok isAuthorized :=
        deserializeField_object isAuthorized hsame rfl (fits_bool isAuthorized)
      simp [receive, Gateway.PassengerLine.message, Gateway.PassengerLine.effects, hauthorized]
  | pagoConfirmado =>
      simp [receive, Gateway.PassengerLine.message, Gateway.PassengerLine.effects, pure,
        Except.pure]

/-! ## Datagrams -/

theorem ElectionMsg.valid {m : ElectionMsg} (hm : m.InRange) : m.message.2.Valid := by
  cases m <;> obtain ⟨h, h', h''⟩ := hm <;> exact valid_object (by simp [valid_toValue, h, h', h''])

theorem UdpReceiver.listen_ofText (message addr : String) :
    listen codec.toString codec.fromStr (some (.ofText message addr)) =
      dispatch codec.toString codec.fromStr message addr := by
  simp only [listen, Datagram.ofText, fromUTF8?_toByteArray]

/-- An election message is handed to the server, and acknowledged with its own text. -/
theorem UdpReceiver.listen_serialized (codec : JsonCodec) {m : ElectionMsg} (hm : m.InRange)
    (addr : String) :
    listen codec.toString codec.fromStr (some (.ofText (m.serialized codec.toString) addr)) =
      ⟨[.sendMessage
          (serializedAck codec.toString (m.serialized codec.toString) m.sequenceNumber) addr,
        .listen], [m.toServerMsg]⟩ := by
  obtain ⟨payload, hsplit, hsame⟩ :=
    splitMessage_serializeMessage codec m.message.1 (ElectionMsg.valid hm)
  rw [listen_ofText, dispatch, ElectionMsg.serialized, hsplit]
  cases m with
  | election m =>
      obtain ⟨hleader, hids, hnumber⟩ := hm
      have hleader : deserializeField ℕ payload "disconnected_leader_id" =
          .ok m.disconnectedLeaderId :=
        deserializeField_object m.disconnectedLeaderId hsame rfl hleader
      have hids : deserializeField (List ℕ) payload "server_ids" = .ok m.serverIds :=
        deserializeField_object m.serverIds hsame rfl hids
      have hnumber : deserializeField ℕ payload "sequence_number" = .ok m.sequenceNumber :=
        deserializeField_object m.sequenceNumber hsame rfl hnumber
      have hread : readElection payload = .ok m := by
        simp [readElection, ok_bind, hleader, hids, hnumber]
      simp [ElectionMsg.message, ElectionMsg.toServerMsg, hread]
  | newLeader m =>
      obtain ⟨hsender, hleader, hnumber⟩ := hm
      have hsender : deserializeField ℕ payload "id_sender" = .ok m.idSender :=
        deserializeField_object m.idSender hsame rfl hsender
      have hleader : deserializeField ℕ payload "leader_id" = .ok m.leaderId :=
        deserializeField_object m.leaderId hsame rfl hleader
      have hnumber : deserializeField ℕ payload "sequence_number" = .ok m.sequenceNumber :=
        deserializeField_object m.sequenceNumber hsame rfl hnumber
      have hread : readNewLeader payload = .ok m := by
        simp [readNewLeader, ok_bind, hsender, hleader, hnumber]
      simp [ElectionMsg.message, ElectionMsg.toServerMsg, hread]

/-- An acknowledgement brings back the text it is for. -/
theorem UdpReceiver.listen_serializedAck (codec : JsonCodec) (message addr : String)
    {sequenceNumber : ℕ} (h : Fits sequenceNumber) :
    listen codec.toString codec.fromStr
        (some (.ofText (serializedAck codec.toString message sequenceNumber) addr)) =
      ⟨[.listen], [.neighborAck 0 message sequenceNumber]⟩ := by
  have hvalid : (Json.object [("sequence_number", .num sequenceNumber), ("message", .str message),
      ("id", .num 0)]).Valid :=
    valid_object (by simp [Json.Valid.num h, Json.Valid.str, Json.Valid.num])
  obtain ⟨payload, hsplit, hsame⟩ := splitMessage_serializeMessage codec "ack" hvalid
  have hnumber : deserializeField ℕ payload "sequence_number" = .ok sequenceNumber :=
    deserializeField_object sequenceNumber hsame rfl h
  have hmessage : deserializeField String payload "message" = .ok message :=
    deserializeField_object message hsame rfl (fits_string message)
  have hid : deserializeField ℕ payload "id" = .ok 0 :=
    deserializeField_object 0 hsame rfl (show 0 < 2 ^ 64 by decide)
  have hread : readAck payload = .ok (.neighborAck 0 message sequenceNumber) := by
    simp [readAck, ok_bind, hid, hmessage, hnumber]
  rw [listen_ofText, dispatch, serializedAck, hsplit]
  simp [hread]

/-! ## All connections -/

/-- What the handler `line` makes of the messages on a connection, line by line. -/
def received {β : Type} (toString : Json → String) (line : Option String → List β)
    (messages : List (String × Json)) : List (List β) :=
  (lines (written toString messages)).map line

/-- What is written on a connection is read at its other end, for every pair of processes. -/
structure RoundTrips (codec : JsonCodec) : Prop where
  /-- every message is a line, and is split into its name and its payload -/
  message : ∀ messages : List (String × Json), (∀ m ∈ messages, m.2.Valid) →
    List.Forall₂ (fun m read => ∃ text payload, read = some text ∧
        splitMessage codec.fromStr text = (m.1, payload) ∧ m.2.Same payload)
      messages (lines (written codec.toString messages))
  driverToLeader : ∀ (addr : Addr) (ls : List Driver.ServerLine), (∀ l ∈ ls, l.InRange) →
    received codec.toString (TcpSender.line codec.fromStr addr) (ls.map Driver.ServerLine.message) =
      ls.map fun l => [l.toMsg]
  passengerToLeader : ∀ (addr : Addr) (ls : List Passenger.ServerLine), (∀ l ∈ ls, l.InRange) →
    received codec.toString (TcpSender.line codec.fromStr addr)
        (ls.map Passenger.ServerLine.message) =
      ls.map fun l => [l.toMsg addr]
  replicaToLeader : ∀ (addr : Addr) (ls : List ReplicaLine), (∀ l ∈ ls, l.InRange) →
    received codec.toString (TcpSender.line codec.fromStr addr) (ls.map ReplicaLine.message) =
      ls.map fun l => [l.toMsg addr]
  leaderToPassenger : ∀ ls : List Line, (∀ l ∈ ls, l.InRange) →
    received codec.toString (Passenger.TcpReceiver.line codec.fromStr) (ls.map Line.message) =
      ls.map Line.toPassenger
  leaderToReplica : ∀ states : List UpdateNetworkState, (∀ state ∈ states, state.InRange) →
    List.Forall₂ (fun state read => ∀ (s : LeaderConnection.State) (now : ℕ), ∃ state',
        (LeaderConnection.line codec.fromStr s now read).2 =
            [.server (.updateNetworkState state')] ∧
          state.Same state')
      states (lines (written codec.toString (states.map fun state => (Line.pong state).message)))
  passengerToDriver : ∀ (addr : ℕ) (ls : List Passenger.DriverLine), (∀ l ∈ ls, l.InRange) →
    received codec.toString (Driver.PassengerConnection.line codec.fromStr addr)
        (ls.map Passenger.DriverLine.message) =
      ls.map fun l => [l.toMsg addr]
  driverToPassenger : ∀ ls : List Driver.PassengerLine, (∀ l ∈ ls, l.InRange) →
    received codec.toString (Passenger.TcpReceiver.line codec.fromStr)
        (ls.map Driver.PassengerLine.message) =
      ls.map fun l => [l.toMsg]
  passengerToGateway : ∀ ls : List Passenger.GatewayLine,
    List.Forall₂ (fun l read => ∀ isAuthorized,
        Gateway.TcpConnection.line codec.fromStr isAuthorized read = l.effects isAuthorized)
      ls (lines (written codec.toString (ls.map Passenger.GatewayLine.message)))
  gatewayToPassenger : ∀ ls : List Gateway.PassengerLine,
    received codec.toString (Passenger.GatewayConnection.line codec.fromStr true)
        (ls.map Gateway.PassengerLine.message) =
      ls.map Gateway.PassengerLine.effects
  electionDatagram : ∀ (m : ElectionMsg) (addr : String), m.InRange →
    (UdpReceiver.listen codec.toString codec.fromStr
      (some (.ofText (m.serialized codec.toString) addr))).server = [m.toServerMsg]
  ackDatagram : ∀ (message addr : String) (sequenceNumber : ℕ), Fits sequenceNumber →
    (UdpReceiver.listen codec.toString codec.fromStr (some (.ofText
        (UdpReceiver.serializedAck codec.toString message sequenceNumber) addr))).server =
      [.neighborAck 0 message sequenceNumber]

/-- **The same sequence of messages arrives**, on every connection and in every datagram. -/
theorem wire_round_trip (codec : JsonCodec) : RoundTrips codec where
  message messages hvalid := by
    rw [lines_written codec hvalid, List.forall₂_map_right_iff, List.forall₂_same]
    intro m hm
    obtain ⟨payload, hsplit, hsame⟩ := splitMessage_serializeMessage codec m.1 (hvalid m hm)
    exact ⟨_, payload, rfl, hsplit, hsame⟩
  driverToLeader addr ls hls :=
    map_streamHandler (fun l hl => Driver.ServerLine.valid (hls l hl))
      fun l hl _ hsame => TcpSender.receive_driver addr (hls l hl) hsame
  passengerToLeader addr ls hls :=
    map_streamHandler (fun l hl => Passenger.ServerLine.valid (hls l hl))
      fun _ _ _ hsame => TcpSender.receive_passenger addr hsame
  replicaToLeader addr ls hls :=
    map_streamHandler (fun l hl => ReplicaLine.valid (hls l hl))
      fun l hl _ hsame => TcpSender.receive_replica addr (hls l hl) hsame
  leaderToPassenger ls hls :=
    map_streamHandler (fun l hl => Line.valid (hls l hl))
      fun l hl _ hsame => Passenger.TcpReceiver.receive_leader (hls l hl) hsame
  leaderToReplica states hstates := by
    refine forall₂_lines_written (fun state h => UpdateNetworkState.valid (hstates state h)) ?_
    intro state hstate text payload hsplit hsame s now
    obtain ⟨state', hread, hsame'⟩ := readPong_of_same (hstates state hstate) hsame
    refine ⟨state', ?_, hsame'⟩
    rw [LeaderConnection.line]
    simp [hsplit, Line.message, hread]
  passengerToDriver addr ls hls :=
    map_streamHandler (fun l hl => Passenger.DriverLine.valid (hls l hl))
      fun l hl _ hsame => Driver.PassengerConnection.receive_passenger addr (hls l hl) hsame
  driverToPassenger ls hls :=
    map_streamHandler (fun l hl => Driver.PassengerLine.valid (hls l hl))
      fun l hl _ hsame => Passenger.TcpReceiver.receive_driver (hls l hl) hsame
  passengerToGateway ls := by
    refine forall₂_lines_written (fun l _ => Passenger.GatewayLine.valid l) ?_
    intro l _ text payload hsplit hsame isAuthorized
    rw [Gateway.TcpConnection.line, streamHandler, hsplit]
    simp only [Gateway.TcpConnection.receive_passenger isAuthorized hsame]
  gatewayToPassenger ls :=
    map_streamHandler (fun l _ => Gateway.PassengerLine.valid l)
      fun _ _ _ hsame => Passenger.GatewayConnection.receive_gateway hsame
  electionDatagram m addr hm := by rw [UdpReceiver.listen_serialized codec hm]
  ackDatagram message addr sequenceNumber h := by rw [UdpReceiver.listen_serializedAck codec _ _ h]

/-- A driver registers and becomes busy: the leader reads both, from the text without spaces. -/
theorem wire_round_trip_compact :
    received JsonCodec.compact.toString (TcpSender.line JsonCodec.compact.fromStr (.client 1))
        ([.newDriver "127.0.0.1:8081" "ana" (3, 4), .busyDriver "ana"].map
          Driver.ServerLine.message) =
      [[.newDriver { name := "ana", socket := "127.0.0.1:8081", position := (3, 4) }],
        [.busyDriver { name := "ana" }]] := by
  refine (wire_round_trip JsonCodec.compact).driverToLeader (.client 1) _ fun l hl => ?_
  simp only [List.mem_cons, List.not_mem_nil, or_false] at hl
  rcases hl with rfl | rfl
  · exact show 3 < 2 ^ 64 ∧ 4 < 2 ^ 64 by decide
  · trivial

end ConcuRide

import ConcuRide.Lib.JsonRange
import ConcuRide.Server.Ledger
import ConcuRide.Wire.Connection

set_option autoImplicit false

/-! # A leader and the bytes that reach it

A leader behind its `TcpSender`s. Anybody may connect and write anything: the bytes arrive in
portions of any size, each `TcpSender` cuts them into lines and reads them, and what it takes for a
message waits in the mailbox of the leader. The lines of the leader wait in the mailboxes of the
`TcpSender`s. One that finds the other end gone when it writes panics, and its connection alone is
over. -/

namespace ConcuRide

open Lib

/-- A leader, its mailbox, and the connections to it. -/
structure Reception where
  srv : Server
  mailbox : List Msg
  /-- the bytes of the line that a `TcpSender` has begun to read -/
  buffered : Addr → List UInt8
  /-- the lines that wait in the mailbox of a `TcpSender` -/
  queued : Addr → List Line
  /-- a `TcpSender` has stopped: its stream has come to its end, or it could not write -/
  ended : Addr → Bool
  /-- the lines that the `TcpSender`s have written, the oldest first -/
  written : List (Addr × Line)
  /-- a handler of the leader has panicked -/
  panicked : Bool

/-- The lines that a handler writes, with their connections. -/
def tcpLines (effects : List Effect) : List (Addr × Line) :=
  effects.filterMap fun
    | .tcp addr line => some (addr, line)
    | _ => none

/-- Those for one connection. -/
def linesTo (addr : Addr) (effects : List Effect) : List Line :=
  (tcpLines effects).filterMap fun l => if l.1 = addr then some l.2 else none

namespace Reception

inductive Label where
  /-- bytes arrive on a connection -/
  | arrive (addr : Addr) (portion : List UInt8)
  /-- a stream ends -/
  | eof (addr : Addr)
  /-- a `TcpSender` handles the next `TcpMessage` of its mailbox, and the line can be written or
      not -/
  | write (addr : Addr) (succeeds : Bool)
  /-- the timer of a `ServerConnection` fires -/
  | ping
  /-- the leader handles the next message of its mailbox -/
  | handle (o : Oracle)

def start (N id : ℕ) : Reception where
  srv := Server.lider N id
  mailbox := []
  buffered := fun _ => []
  queued := fun _ => []
  ended := fun _ => false
  written := []
  panicked := false

/-- The messages that the `TcpSender` at `addr` makes of the lines it reads. -/
def messages (fromStr : String → Option Json) (addr : Addr) (lines : List (Option String)) :
    List Msg :=
  lines.flatMap (TcpSender.line fromStr addr)

/-- The `TcpSender` at `addr` stops, and what waits in its mailbox is lost. -/
def stop (r : Reception) (addr : Addr) : Reception :=
  { r with
    queued := Function.update r.queued addr []
    ended := Function.update r.ended addr true }

def step (N : ℕ) (fromStr : String → Option Json) (r : Reception) : Label → Option Reception
  | .arrive addr portion =>
    if r.ended addr then none
    else
      let (read, rest) := feed (r.buffered addr) portion
      some { r with
        mailbox := r.mailbox ++ messages fromStr addr read
        buffered := Function.update r.buffered addr rest }
  | .eof addr =>
    if r.ended addr then none
    else some { r.stop addr with
      mailbox := r.mailbox ++ messages fromStr addr (finish (r.buffered addr)) }
  | .write addr succeeds =>
    match r.queued addr with
    | [] => none
    | line :: rest =>
      if succeeds then
        some { r with
          queued := Function.update r.queued addr rest
          written := r.written ++ [(addr, line)] }
      else some (r.stop addr)
  | .ping => some { r with mailbox := r.mailbox ++ [.ping] }
  | .handle o =>
    if r.panicked then none
    else
      match r.mailbox with
      | [] => none
      | m :: rest =>
        match r.srv.handle N o m with
        | none => some { r with mailbox := rest, panicked := true }
        | some (srv, effects) =>
          some { r with
            srv := srv
            mailbox := rest ++ selfMessages effects
            queued := fun addr =>
              if r.ended addr then [] else r.queued addr ++ linesTo addr effects }

/-- The leader has told the client at `addr` the line: it is written, or waits to be. -/
def Told (r : Reception) (addr : Addr) (line : Line) : Prop :=
  line ∈ r.queued addr ∨ (addr, line) ∈ r.written

end Reception

/-! ## What a `TcpSender` takes for a message -/

/-- A message that a line can be taken for, or that the leader sends itself. Its numbers are of 64
    bits. -/
def Msg.Admitted : Msg → Prop
  | .newDriver m => Fits m.position
  | .updateDriver m => Fits m.newPosition
  | .reconnectDriver m => Fits m.idPassenger
  | .newServerConnection m => Fits m.id
  | .getDrivers _ | .passengerLogin _ | .busyDriver _ | .updateDriverSocket _ | .pong _
  | .ping => True
  | _ => False

section Admitted

variable {payload : Json} {field : String} {addr : Addr}

theorem deserializeField_fromValue {α : Type} [FromValue α] {a : α}
    (h : deserializeField α payload field = .ok a) :
    ∃ v, payload.field? field = some v ∧ fromValue v = some a := by
  unfold deserializeField at h
  split at h
  · cases h
  · next v hv =>
      split at h
      · cases h
      · next b hb =>
          cases h
          exact ⟨v, hv, hb⟩

theorem fits_fromValue {v : Json} (hv : v.Bounded) {n : ℕ} (h : fromValue v = some n) : Fits n := by
  cases hv with
  | num hn =>
      obtain rfl := Option.some.inj h
      exact hn
  | _ => cases h

theorem fits_deserializeField (hp : payload.Bounded) {n : ℕ}
    (h : deserializeField ℕ payload field = .ok n) : Fits n := by
  obtain ⟨v, hv, hn⟩ := deserializeField_fromValue h
  exact fits_fromValue (hp.field? hv) hn

theorem fits_deserializePosition (hp : payload.Bounded) {p : Position}
    (h : deserializeField Position payload field = .ok p) : Fits p := by
  obtain ⟨v, hv, hp'⟩ := deserializeField_fromValue h
  have hbounded := hp.field? hv
  unfold fromValue at hp'
  simp only [instFromValueProd] at hp'
  split at hp'
  · next x y =>
      simp only [Option.bind_eq_bind, Option.bind_eq_some_iff] at hp'
      obtain ⟨a, ha, b, hb, heq⟩ := hp'
      cases heq
      cases hbounded with
      | arr h => exact ⟨fits_fromValue (h x (by simp)) ha, fits_fromValue (h y (by simp)) hb⟩
  · cases hp'

theorem bind_eq_ok {ε α β : Type} {x : Except ε α} {f : α → Except ε β} {b : β}
    (h : (x >>= f) = .ok b) : ∃ a, x = .ok a ∧ f a = .ok b := by
  cases x with
  | error e => cases h
  | ok a => exact ⟨a, rfl, h⟩

/-- **A `TcpSender` takes a line only for a message of a client or a replica.** -/
theorem TcpSender.admitted {messageName : String} (hp : payload.Bounded) {ms : List Msg}
    (h : TcpSender.receive addr messageName payload = .ok ms) : ∀ m ∈ ms, m.Admitted := by
  unfold TcpSender.receive at h
  split at h
  · obtain ⟨id, hid, h⟩ := bind_eq_ok h
    obtain ⟨socket, -, h⟩ := bind_eq_ok h
    cases h
    exact List.forall_mem_singleton.2 (fits_deserializeField hp hid)
  split at h
  · obtain ⟨name, -, h⟩ := bind_eq_ok h
    cases h
    exact List.forall_mem_singleton.2 trivial
  split at h
  · cases h
    exact List.forall_mem_singleton.2 trivial
  split at h
  · obtain ⟨position, hposition, h⟩ := bind_eq_ok h
    obtain ⟨socket, -, h⟩ := bind_eq_ok h
    obtain ⟨name, -, h⟩ := bind_eq_ok h
    cases h
    exact List.forall_mem_singleton.2 (fits_deserializePosition hp hposition)
  split at h
  · obtain ⟨name, -, h⟩ := bind_eq_ok h
    cases h
    exact List.forall_mem_singleton.2 trivial
  split at h
  · obtain ⟨position, hposition, h⟩ := bind_eq_ok h
    obtain ⟨name, -, h⟩ := bind_eq_ok h
    cases h
    exact List.forall_mem_singleton.2 (fits_deserializePosition hp hposition)
  split at h
  · cases h
    exact List.forall_mem_singleton.2 trivial
  split at h
  · obtain ⟨id, hid, h⟩ := bind_eq_ok h
    obtain ⟨socket, -, h⟩ := bind_eq_ok h
    obtain ⟨name, -, h⟩ := bind_eq_ok h
    cases h
    exact List.forall_mem_singleton.2 (fits_deserializeField hp hid)
  · cases h
    simp

/-- The payload of a message that is read. -/
theorem bounded_splitMessage {codec : JsonCodec} (hcodec : codec.ReadsBounded) (line : String) :
    (splitMessage codec.fromStr line).2.Bounded := by
  unfold splitMessage
  split
  · exact .null
  · next v hv =>
      have hbounded := hcodec line v hv
      unfold splitValue
      split
      · exact .null
      · split
        · exact .null
        · next payload hpayload => exact hbounded.field? hpayload

theorem TcpSender.admitted_line {codec : JsonCodec} (hcodec : codec.ReadsBounded)
    (line : Option String) : ∀ m ∈ TcpSender.line codec.fromStr addr line, m.Admitted := by
  intro m hm
  unfold TcpSender.line streamHandler at hm
  split at hm
  · cases hm
  · next line =>
      dsimp only at hm
      split at hm
      · cases hm
      · next ms hms => exact TcpSender.admitted (bounded_splitMessage hcodec line) hms m hm

end Admitted

/-! ## What the leader keeps and writes -/

/-- What the leader has stored of the messages it has handled is of 64 bits. It has taken no part in
    an election. -/
structure Server.Keeps (s : Server) : Prop where
  position : ∀ name d, s.drivers.lookup name = some d ∨ s.busyDrivers.lookup name = some d →
    Fits d.position
  sockets : ∀ id ∈ s.udpSocketsReplicas, id < 2 ^ 64
  disconnected : s.disconnectedServers = []
  alone : s.leaderConnection = none

/-- What a line tells a client is what the registry says: a client has the id it is told, and every
    driver of a list has its entry, once. -/
def Line.Backed (s : Server) : Line → Prop
  | .identificador id => ∃ name, s.idOf (.passenger name) = some id
  | .drivers driversInfo => (driversInfo.map DriverInfo.name).Nodup ∧
    ∀ d ∈ driversInfo, s.idOf (.driver d.name) = some d.id
  | _ => True

section Written

variable {N : ℕ} {o : Oracle} {s t : Server} {m : Msg} {effects : List Effect}

theorem lookup_of_entry {K V : Type} [DecidableEq K] {m : HashMap K V} {e : Sigma fun _ : K => V}
    (he : e ∈ m.entries) : m.lookup e.1 = some e.2 :=
  List.mem_dlookup m.nodupKeys he

theorem mem_values {K V : Type} [DecidableEq K] {m : HashMap K V} {v : V} :
    v ∈ m.values ↔ ∃ k, m.lookup k = some v := by
  constructor
  · intro hv
    obtain ⟨e, he, rfl⟩ := List.mem_map.1 hv
    exact ⟨e.1, lookup_of_entry he⟩
  · rintro ⟨k, hk⟩
    exact List.mem_map.2 ⟨⟨k, v⟩, List.of_mem_dlookup hk, rfl⟩

theorem idOf_step {c : Client} {i : ℕ} (h : s.idOf c = some i)
    (hstep : Alloc.Step s.alloc t.alloc) : t.idOf c = some i :=
  hstep.keeps (k := c) h

theorem Server.WellFormed.idOf_le (hwf : s.WellFormed) {c : Client} {i : ℕ}
    (h : s.idOf c = some i) : i ≤ s.idsCount :=
  (hwf.ids.range c i h).2

theorem Line.Backed.step {l : Line} (h : l.Backed s) (hstep : Alloc.Step s.alloc t.alloc) :
    l.Backed t := by
  cases l with
  | identificador id =>
      obtain ⟨name, hid⟩ := h
      exact ⟨name, idOf_step hid hstep⟩
  | drivers driversInfo => exact ⟨h.1, fun d hd => idOf_step (h.2 d hd) hstep⟩
  | reconnectDriver | pong => trivial

/-- The entry of a driver is of 64 bits, as long as the ids are. -/
theorem Server.Keeps.fits (h : s.Keeps) (hwf : s.WellFormed) (hcount : s.idsCount < 2 ^ 64)
    {name : String} {d : DriverInfo}
    (hd : s.drivers.lookup name = some d ∨ s.busyDrivers.lookup name = some d) : Fits d := by
  have hid : s.idOf (.driver name) = some d.id := by
    rcases hd with hd | hd
    · simp [Server.idOf, Server.driverInfo, hd]
    · simp [Server.idOf, Server.driverInfo, hd, Server.not_free_of_busy hwf.drivers hd]
  exact ⟨Nat.lt_of_le_of_lt (hwf.idOf_le hid) hcount, h.position name d hd⟩

theorem backed_drivers (hwf : s.WellFormed) : (Line.drivers s.drivers.values).Backed s := by
  have hname : ∀ e ∈ s.drivers.entries, e.2.name = e.1 := fun e he =>
    hwf.drivers.freeName e.1 e.2 (lookup_of_entry he)
  constructor
  · have hkeys : s.drivers.values.map DriverInfo.name = s.drivers.entries.map Sigma.fst := by
      rw [HashMap.values, List.map_map]
      exact List.map_congr_left hname
    rw [hkeys]
    exact s.drivers.nodupKeys
  · intro d hd
    obtain ⟨name, hd⟩ := mem_values.1 hd
    rw [hwf.drivers.freeName name d hd]
    simp [Server.idOf, Server.driverInfo, hd]

theorem inRange_networkState (h : s.Keeps) (hwf : s.WellFormed) (hcount : s.idsCount < 2 ^ 64) :
    s.networkState.InRange := by
  refine ⟨hcount, fun e he => ⟨trivial, ?_⟩, fun e he => ⟨trivial, ?_⟩, fun e he => ⟨trivial, ?_⟩,
    fun e he => ⟨?_, trivial⟩, ?_⟩
  · exact h.fits hwf hcount (.inl (lookup_of_entry he))
  · exact h.fits hwf hcount (.inr (lookup_of_entry he))
  · have hid : s.idOf (.passenger e.1) = some e.2 := lookup_of_entry he
    exact Nat.lt_of_le_of_lt (hwf.idOf_le hid) hcount
  · have hlookup : s.udpSocketsReplicas.lookup e.1 = some e.2 := lookup_of_entry he
    exact h.sockets e.1 (AList.lookup_isSome.1 (by rw [hlookup]; rfl))
  · rw [Server.networkState, h.disconnected]
    exact List.forall_mem_nil _

/-- What handling a message leaves behind. -/
structure Server.Serves (s t : Server) (effects : List Effect) : Prop where
  drivers : t.DriversOk
  alloc : Alloc.Step s.alloc t.alloc
  keeps : t.Keeps
  self : ∀ x ∈ selfMessages effects, x.Admitted
  backed : ∀ l ∈ tcpLines effects, l.2.Backed t
  inRange : t.idsCount < 2 ^ 64 → ∀ l ∈ tcpLines effects, l.2.InRange

theorem newDriver_serves (hwf : s.WellFormed) (hk : s.Keeps) {m : NewDriver}
    (hm : Fits m.position) : s.Serves (s.newDriver m).1 (s.newDriver m).2 := by
  obtain ⟨hdrivers, halloc⟩ := Server.newDriver_step hwf.drivers m
  refine ⟨hdrivers, halloc, ⟨?_, ?_, ?_, ?_⟩, ?_, ?_, ?_⟩ <;> unfold Server.newDriver
  · intro name d hd
    split at hd
    · exact hk.position name d hd
    · split at hd
      · exact hk.position name d hd
      · simp only [lookup_insert_ite] at hd
        split at hd
        · rcases hd with hd | hd
          · obtain rfl := Option.some.inj hd
            exact hm
          · exact hk.position name d (.inr hd)
        · exact hk.position name d hd
  · split
    · exact hk.sockets
    · split <;> exact hk.sockets
  · split
    · exact hk.disconnected
    · split <;> exact hk.disconnected
  · split
    · exact hk.alone
    · split <;> exact hk.alone
  · split
    · simp [selfMessages, Msg.Admitted]
    · split <;> simp [selfMessages, Msg.Admitted]
  · split
    · simp [tcpLines]
    · split <;> simp [tcpLines]
  · split
    · simp [tcpLines]
    · split <;> simp [tcpLines]

theorem passengerLogin_serves (hwf : s.WellFormed) (hk : s.Keeps) (m : PassengerLogin) :
    s.Serves (s.passengerLogin m).1 (s.passengerLogin m).2 := by
  obtain ⟨hdrivers, halloc⟩ := Server.passengerLogin_step hwf.drivers m
  have hids := hwf.ids.step halloc
  have told : ∃ id, (s.passengerLogin m).1.idOf (.passenger m.name) = some id ∧
      tcpLines (s.passengerLogin m).2 = [(m.addr, .identificador id)] ∧
      selfMessages (s.passengerLogin m).2 = [] := by
    unfold Server.passengerLogin
    split
    · next id hid => exact ⟨id, hid, rfl, rfl⟩
    · exact ⟨_, AList.lookup_insert _, rfl, rfl⟩
  obtain ⟨id, hid, htcp, hself⟩ := told
  refine ⟨hdrivers, halloc, ?_, by simp [hself], ?_, ?_⟩
  · unfold Server.passengerLogin
    split <;> exact ⟨hk.position, hk.sockets, hk.disconnected, hk.alone⟩
  · rw [htcp]
    exact List.forall_mem_singleton.2 ⟨m.name, hid⟩
  · rw [htcp]
    exact fun hcount => List.forall_mem_singleton.2
      (Nat.lt_of_le_of_lt (hids.range (.passenger m.name) id hid).2 hcount)

theorem updateDriver_serves (hwf : s.WellFormed) (hk : s.Keeps) {m : UpdateDriver}
    (hm : Fits m.newPosition) : s.Serves (s.updateDriver m).1 (s.updateDriver m).2 := by
  obtain ⟨hdrivers, halloc⟩ := Server.updateDriver_step hwf.drivers m
  refine ⟨hdrivers, halloc, ⟨?_, ?_, ?_, ?_⟩, ?_, ?_, ?_⟩ <;> unfold Server.updateDriver
  · intro name d hd
    split at hd
    · exact hk.position name d hd
    · simp only [lookup_insert_ite, lookup_erase_ite] at hd
      split at hd
      · rcases hd with hd | hd
        · obtain rfl := Option.some.inj hd
          exact hm
        · cases hd
      · exact hk.position name d hd
  · split <;> exact hk.sockets
  · split <;> exact hk.disconnected
  · split <;> exact hk.alone
  · split <;> simp [selfMessages]
  · split <;> simp [tcpLines]
  · split <;> simp [tcpLines]

theorem busyDriver_serves (hwf : s.WellFormed) (hk : s.Keeps) (m : BusyDriver) :
    s.Serves (s.busyDriver m).1 (s.busyDriver m).2 := by
  obtain ⟨hdrivers, halloc⟩ := Server.busyDriver_step hwf.drivers m
  refine ⟨hdrivers, halloc, ⟨?_, ?_, ?_, ?_⟩, ?_, ?_, ?_⟩ <;> unfold Server.busyDriver
  · intro name d hd
    split at hd
    · exact hk.position name d hd
    · next driver hdriver =>
        simp only [lookup_insert_ite, lookup_erase_ite] at hd
        split at hd
        · rcases hd with hd | hd
          · cases hd
          · obtain rfl := Option.some.inj hd
            exact hk.position m.name driver (.inl hdriver)
        · exact hk.position name d hd
  · split <;> exact hk.sockets
  · split <;> exact hk.disconnected
  · split <;> exact hk.alone
  · split <;> simp [selfMessages]
  · split <;> simp [tcpLines]
  · split <;> simp [tcpLines]

theorem updateDriverSocket_serves (hwf : s.WellFormed) (hk : s.Keeps) (m : UpdateDriverSocket) :
    s.Serves (s.updateDriverSocket m).1 (s.updateDriverSocket m).2 := by
  obtain ⟨hdrivers, halloc⟩ := Server.updateDriverSocket_step hwf.drivers m
  refine ⟨hdrivers, halloc, ⟨?_, hk.sockets, hk.disconnected, hk.alone⟩,
    by simp [Server.updateDriverSocket, selfMessages],
    by simp [Server.updateDriverSocket, tcpLines], by simp [Server.updateDriverSocket, tcpLines]⟩
  intro name d hd
  simp only [Server.updateDriverSocket, lookup_setSocket] at hd
  split at hd
  · rcases hd with hd | hd
    · obtain ⟨d', hd', rfl⟩ := Option.map_eq_some_iff.1 hd
      exact hk.position m.name d' (.inl hd')
    · obtain ⟨d', hd', rfl⟩ := Option.map_eq_some_iff.1 hd
      exact hk.position m.name d' (.inr hd')
  · exact hk.position name d hd

theorem newServerConnection_serves (hwf : s.WellFormed) (hk : s.Keeps) {m : NewServerConnection}
    (hm : Fits m.id) : s.Serves (s.newServerConnection m).1 (s.newServerConnection m).2 := by
  refine ⟨⟨hwf.drivers.disjoint, hwf.drivers.freeName, hwf.drivers.busyName⟩, .same ?_ rfl,
    ⟨hk.position, ?_, ?_, hk.alone⟩, ?_, ?_, ?_⟩
  · funext c
    cases c <;> rfl
  · intro id hid
    rcases AList.mem_insert _ |>.1 hid with rfl | hid
    · exact hm
    · exact hk.sockets id hid
  · show List.filter _ s.disconnectedServers = []
    rw [hk.disconnected, List.filter_nil]
  · intro x hx
    simp only [Server.newServerConnection, selfMessages, List.mem_filterMap, List.mem_map] at hx
    obtain ⟨_, ⟨addr, -, rfl⟩, hx⟩ := hx
    obtain rfl := Option.some.inj hx
    trivial
  · intro l hl
    simp only [Server.newServerConnection, tcpLines, List.mem_filterMap, List.mem_map] at hl
    obtain ⟨_, ⟨addr, -, rfl⟩, hl⟩ := hl
    cases hl
  · intro _ l hl
    simp only [Server.newServerConnection, tcpLines, List.mem_filterMap, List.mem_map] at hl
    obtain ⟨_, ⟨addr, -, rfl⟩, hl⟩ := hl
    cases hl

/-- Whatever it is that a line was taken for, the leader handles it. -/
theorem Server.Keeps.handle (hk : s.Keeps) (hwf : s.WellFormed) (hm : m.Admitted) :
    ∃ t effects, s.handle N o m = some (t, effects) ∧ s.Serves t effects := by
  cases m with
  | newDriver m => exact ⟨_, _, rfl, newDriver_serves hwf hk hm⟩
  | passengerLogin m => exact ⟨_, _, rfl, passengerLogin_serves hwf hk m⟩
  | updateDriver m => exact ⟨_, _, rfl, updateDriver_serves hwf hk hm⟩
  | busyDriver m => exact ⟨_, _, rfl, busyDriver_serves hwf hk m⟩
  | updateDriverSocket m => exact ⟨_, _, rfl, updateDriverSocket_serves hwf hk m⟩
  | newServerConnection m => exact ⟨_, _, rfl, newServerConnection_serves hwf hk hm⟩
  | getDrivers addr =>
      refine ⟨s, _, rfl, hwf.drivers, .same rfl rfl, hk, by simp [selfMessages], ?_, ?_⟩
      · exact List.forall_mem_singleton.2 (backed_drivers hwf)
      · intro hcount
        refine List.forall_mem_singleton.2 fun d hd => ?_
        obtain ⟨name, hd⟩ := mem_values.1 hd
        exact hk.fits hwf hcount (.inl hd)
  | reconnectDriver m =>
      refine ⟨s, (s.reconnectDriver m).2, ?_, hwf.drivers, .same rfl rfl, hk, ?_, ?_, ?_⟩ <;>
        unfold Server.reconnectDriver
      · simp only [Server.handle, Server.reconnectDriver]
        split <;> rfl
      · dsimp only
        split <;> simp [selfMessages, Msg.Admitted]
      · dsimp only
        split <;> simp [tcpLines, Line.Backed]
      · dsimp only
        split <;> simp [tcpLines, Line.InRange]
  | ping =>
      refine ⟨s, [], ?_, hwf.drivers, .same rfl rfl, hk, by simp [selfMessages], by simp [tcpLines],
        by simp [tcpLines]⟩
      simp only [Server.handle, Server.ping, hk.alone]
  | pong addr =>
      refine ⟨s, _, rfl, hwf.drivers, .same rfl rfl, hk, by simp [selfMessages], ?_, ?_⟩
      · exact List.forall_mem_singleton.2 trivial
      · exact fun hcount => List.forall_mem_singleton.2 (inRange_networkState hk hwf hcount)
  | updateNetworkState | setLeader | sendLeaderId | startElection | waitForNeighborAck
  | checkIfNeighborAcked | election | newLeader | neighborAck | connectToServer => cases hm

end Written

/-! ## Runs -/

namespace Reception

variable {N : ℕ} {codec : JsonCodec} {r r' : Reception} {l : Label} {ls : List Label}
  {ok : Reception → Label → Prop}

/-- **What holds of a leader, whatever is written to it.** -/
structure Sound (r : Reception) : Prop where
  wellFormed : r.srv.WellFormed
  keeps : r.srv.Keeps
  mailbox : ∀ m ∈ r.mailbox, m.Admitted
  backed : ∀ addr line, r.Told addr line → line.Backed r.srv
  inRange : r.srv.idsCount < 2 ^ 64 → ∀ addr line, r.Told addr line → line.InRange
  panicked : r.panicked = false

theorem sound_start (N id : ℕ) : Sound (start N id) where
  wellFormed := lider_wellFormed N id
  keeps := ⟨by simp [start, Server.lider], by simp [start, Server.lider], rfl, rfl⟩
  mailbox := by simp [start]
  backed := by simp [start, Told]
  inRange := by simp [start, Told]
  panicked := rfl

theorem admitted_messages (hcodec : codec.ReadsBounded) {addr : Addr}
    {lines : List (Option String)} : ∀ m ∈ messages codec.fromStr addr lines, m.Admitted := by
  intro m hm
  obtain ⟨line, -, hm⟩ := List.mem_flatMap.1 hm
  exact TcpSender.admitted_line hcodec line m hm

/-- Messages arrive, lines are written, and connections end. -/
theorem Sound.of_told (h : r.Sound) (hsrv : r'.srv = r.srv) (hpanicked : r'.panicked = r.panicked)
    (hmailbox : ∀ m ∈ r'.mailbox, m ∈ r.mailbox ∨ m.Admitted)
    (htold : ∀ addr line, r'.Told addr line → r.Told addr line) : r'.Sound where
  wellFormed := hsrv ▸ h.wellFormed
  keeps := hsrv ▸ h.keeps
  mailbox := fun m hm => (hmailbox m hm).elim (h.mailbox m) id
  backed := fun addr line hline => hsrv ▸ h.backed addr line (htold addr line hline)
  inRange := fun hcount addr line hline => h.inRange (hsrv ▸ hcount) addr line (htold addr line hline)
  panicked := hpanicked.trans h.panicked

theorem told_stop {addr other : Addr} {line : Line} (h : (r.stop addr).Told other line) :
    r.Told other line := by
  rcases h with h | h
  · left
    change line ∈ Function.update r.queued addr [] other at h
    by_cases hother : other = addr
    · subst hother
      rw [Function.update_self] at h
      cases h
    · rwa [Function.update_of_ne hother] at h
  · exact .inr h

/-- What a `TcpSender` has written was told before. -/
theorem told_written {addr other : Addr} {line first : Line} {rest : List Line}
    (hqueued : r.queued addr = first :: rest)
    (h : Told { r with
      queued := Function.update r.queued addr rest
      written := r.written ++ [(addr, first)] } other line) : r.Told other line := by
  have hfirst : r.Told addr first := .inl (hqueued ▸ List.mem_cons_self)
  rcases h with h | h
  · left
    change line ∈ Function.update r.queued addr rest other at h
    by_cases hother : other = addr
    · subst hother
      rw [Function.update_self] at h
      exact hqueued ▸ List.mem_cons_of_mem first h
    · rwa [Function.update_of_ne hother] at h
  · rcases List.mem_append.1 h with h | h
    · exact .inr h
    · obtain ⟨rfl, rfl⟩ := Prod.mk.inj (List.mem_singleton.1 h)
      exact hfirst

theorem mem_linesTo {addr : Addr} {line : Line} {effects : List Effect} :
    line ∈ linesTo addr effects ↔ (addr, line) ∈ tcpLines effects := by
  simp only [linesTo, List.mem_filterMap, Option.ite_none_right_eq_some, Option.some.injEq]
  constructor
  · rintro ⟨⟨other, line'⟩, hmem, rfl, rfl⟩
    exact hmem
  · exact fun hmem => ⟨(addr, line), hmem, rfl, rfl⟩

/-- **The leader handles whatever waits in its mailbox.** -/
theorem Sound.handle {o : Oracle} {m : Msg} {rest : List Msg} (h : r.Sound)
    (hmailbox : r.mailbox = m :: rest) :
    ∃ r', r.step N codec.fromStr (.handle o) = some r' ∧ r'.Sound := by
  have hm : m.Admitted := h.mailbox m (hmailbox ▸ List.mem_cons_self)
  obtain ⟨t, effects, hh, hs⟩ := h.keeps.handle (N := N) (o := o) h.wellFormed hm
  refine ⟨_, by simp only [step, h.panicked, hmailbox, hh]; rfl, ?_⟩
  have htold : ∀ addr line, line ∈ (if r.ended addr then [] else r.queued addr ++
      linesTo addr effects) ∨ (addr, line) ∈ r.written →
      r.Told addr line ∨ (addr, line) ∈ tcpLines effects := by
    intro addr line hline
    rcases hline with hline | hline
    · split at hline
      · cases hline
      · exact (List.mem_append.1 hline).imp .inl mem_linesTo.1
    · exact .inl (.inr hline)
  refine ⟨⟨hs.drivers, h.wellFormed.ids.step hs.alloc⟩, hs.keeps, ?_, ?_, ?_, rfl⟩
  · intro x hx
    rcases List.mem_append.1 hx with hx | hx
    · exact h.mailbox x (hmailbox ▸ List.mem_cons_of_mem m hx)
    · exact hs.self x hx
  · intro addr line hline
    rcases htold addr line hline with hold | hnew
    · exact (h.backed addr line hold).step hs.alloc
    · exact hs.backed _ hnew
  · intro hcount addr line hline
    rcases htold addr line hline with hold | hnew
    · have hle : r.srv.idsCount ≤ t.idsCount := hs.alloc.count_le
      exact h.inRange (Nat.lt_of_le_of_lt hle hcount) addr line hold
    · exact hs.inRange hcount _ hnew

theorem Sound.step (h : r.Sound) (hcodec : codec.ReadsBounded)
    (hstep : r.step N codec.fromStr l = some r') : r'.Sound := by
  cases l with
  | arrive addr portion =>
      simp only [Reception.step, Option.ite_none_left_eq_some, Option.some.injEq] at hstep
      obtain ⟨-, rfl⟩ := hstep
      exact h.of_told rfl rfl
        (fun m hm => (List.mem_append.1 hm).imp_right (admitted_messages hcodec m))
        fun _ _ hline => hline
  | eof addr =>
      simp only [Reception.step, Option.ite_none_left_eq_some, Option.some.injEq] at hstep
      obtain ⟨-, rfl⟩ := hstep
      exact h.of_told rfl rfl
        (fun m hm => (List.mem_append.1 hm).imp_right (admitted_messages hcodec m))
        fun _ _ hline => told_stop hline
  | write addr succeeds =>
      simp only [Reception.step] at hstep
      split at hstep
      · cases hstep
      · next line rest hqueued =>
          cases succeeds with
          | true =>
              obtain rfl := Option.some.inj hstep
              exact h.of_told rfl rfl (fun _ hm => .inl hm) fun _ _ hline =>
                told_written hqueued hline
          | false =>
              obtain rfl := Option.some.inj hstep
              exact h.of_told rfl rfl (fun _ hm => .inl hm) fun _ _ hline => told_stop hline
  | ping =>
      obtain rfl := Option.some.inj hstep
      refine h.of_told rfl rfl (fun m hm => ?_) fun _ _ hline => hline
      refine (List.mem_append.1 hm).imp_right fun hm => ?_
      obtain rfl := List.mem_singleton.1 hm
      trivial
  | handle o =>
      cases hmailbox : r.mailbox with
      | nil => simp [Reception.step, h.panicked, hmailbox] at hstep
      | cons m rest =>
          obtain ⟨r'', hstep', hsound⟩ :
              ∃ r'', r.step N codec.fromStr (.handle o) = some r'' ∧ r''.Sound := h.handle hmailbox
          obtain rfl := Option.some.inj (hstep'.symm.trans hstep)
          exact hsound

end Reception

end ConcuRide

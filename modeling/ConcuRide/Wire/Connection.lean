import ConcuRide.Lib.Channel
import ConcuRide.Lib.JsonPrefix
import ConcuRide.Wire.RoundTrip

set_option autoImplicit false

/-! # Connections

A connection between two processes: the actor that owns the write half serializes messages and
writes them as lines (`Handler<TcpMessage>` of `server/src/sender.rs`, `server_connection.rs`,
`driver/src/sender.rs`, `passenger_connection.rs`, `passenger/src/sender.rs`,
`gateway_connection.rs` and `gateway/src/connection.rs`), the one that owns the read half gets them
line by line. Bytes arrive in portions of any size, and a process may end in the middle of a
line. -/

namespace ConcuRide

open Lib

/-- One direction of a connection between two processes: the messages of one, and what the actor
    that reads makes of a line. `κ` is what it knows, or draws, at that moment. -/
structure Protocol (codec : JsonCodec) (ι κ β : Type) where
  message : ι → String × Json
  read : κ → Option String → List β
  /-- what is to be done for a message -/
  Means : ι → κ → List β → Prop
  InRange : ι → Prop
  valid : ∀ m, InRange m → (message m).2.Valid
  reads : ∀ m ctx, InRange m →
    Means m ctx (read ctx (some (serializeMessage codec.toString (message m).1 (message m).2)))
  /-- a line that is no value is only logged -/
  skips : ∀ ctx line, line.bind codec.fromStr = none → read ctx line = []

namespace Protocol

variable {codec : JsonCodec} {ι κ β : Type} (P : Protocol codec ι κ β)

/-- The line of a message. -/
def serialized (m : ι) : String :=
  serializeMessage codec.toString (P.message m).1 (P.message m).2

/-- A step of the connection. -/
def step : Channel ι → Channel.Label ι → Option (Channel ι) :=
  Channel.step fun m => tcpMessage (P.serialized m)

/-- What was done at the other end: what the first `n` messages mean, and nothing else. -/
structure Carries (c : Channel ι) (n : ℕ) : Prop where
  first : List.Forall₂ (fun m line => ∀ ctx, P.Means m ctx (P.read ctx line)) (c.sent.take n)
    (c.lines.take n)
  rest : ∀ line ∈ c.lines.drop n, ∀ ctx, P.read ctx line = []
  all : c.closed = false → c.Idle → n = c.sent.length ∧ c.lines.length = n

variable {P} {ok : Channel ι → Channel.Label ι → Prop} {c : Channel ι}
  {ls : List (Channel.Label ι)}

theorem oneLine (P : Protocol codec ι κ β) {m : ι} (h : P.InRange m) :
    Channel.OneLine (P.serialized m) :=
  codec.one_line _ (valid_messageValue _ (P.valid m h))

theorem means_serialized {m : ι} (h : P.InRange m) (ctx : κ) :
    P.Means m ctx (P.read ctx (some (P.serialized m))) :=
  P.reads m ctx h

/-- The beginning of a line is not taken for a message. -/
theorem skips_truncated (hcodec : codec.RejectsTruncated) {m : ι} (hm : P.InRange m) {s : String}
    (hfirst : s.toList <+: (P.serialized m).toList) (hne : s ≠ P.serialized m) (ctx : κ) :
    P.read ctx (some s) = [] :=
  P.skips ctx (some s) (hcodec _ s (valid_messageValue _ (P.valid m hm)) hfirst hne)

theorem carries_of_lines {n : ℕ} {last : List (Option String)} (hn : n ≤ c.sent.length)
    (hrange : ∀ m ∈ c.sent, P.InRange m)
    (hlines : c.lines = (c.sent.take n).map (fun m => some (P.serialized m)) ++ last)
    (hlast : ∀ line ∈ last, ∀ ctx, P.read ctx line = [])
    (hall : c.closed = false → c.Idle → n = c.sent.length ∧ last = []) : P.Carries c n := by
  have hlength : ((c.sent.take n).map fun m => some (P.serialized m)).length = n := by
    rw [List.length_map, List.length_take, Nat.min_eq_left hn]
  refine ⟨?_, ?_, fun hopen hidle => ?_⟩
  · rw [hlines, List.take_left' hlength, List.forall₂_map_right_iff, List.forall₂_same]
    exact fun m hm ctx => means_serialized (hrange m (List.mem_of_mem_take hm)) ctx
  · rwa [hlines, List.drop_left' hlength]
  · obtain ⟨heq, hnone⟩ := hall hopen hidle
    exact ⟨heq, by rw [hlines, hnone, List.append_nil, hlength]⟩

/-- **A connection carries its messages in order**: at the other end, what the first of them mean
    has been done, and nothing else; all of them, when nothing is on its way. -/
theorem carries (hcodec : codec.RejectsTruncated) (h : Run P.step ok Channel.init ls c)
    (hrange : ∀ m ∈ c.sent, P.InRange m) :
    c.panicked = false ∧ ∃ n ≤ c.sent.length, P.Carries c n := by
  refine ⟨Channel.panicked_of_run h, ?_⟩
  obtain ⟨n, hn, last, hlines, hlast, hall⟩ :=
    Channel.delivers_of_run h fun m hm => P.oneLine (hrange m hm)
  rcases hlast with rfl | ⟨hended, m, line, hm, rfl, hline⟩
  · exact ⟨n, hn, carries_of_lines hn hrange hlines (by simp) hall⟩
  · have hm' := hrange m (List.mem_of_getElem? hm)
    obtain ⟨hlt, hget⟩ := List.getElem?_eq_some_iff.1 hm
    have hopen : ¬(c.closed = false ∧ c.Idle) := fun hidle =>
      List.cons_ne_nil _ _ (hall hidle.1 hidle.2).2
    by_cases hwhole : line = some (P.serialized m)
    · -- only the newline is missing
      have hlines' : c.lines =
          (c.sent.take (n + 1)).map (fun m => some (P.serialized m)) ++ [] := by
        rw [hlines, hwhole, List.append_nil, List.take_add_one, hm, Option.toList_some,
          List.map_append, List.map_singleton]
      exact ⟨n + 1, hlt, carries_of_lines hlt hrange hlines' (by simp)
        fun h1 h2 => absurd ⟨h1, h2⟩ hopen⟩
    · refine ⟨n, hn, carries_of_lines hn hrange hlines ?_ fun h1 h2 => absurd ⟨h1, h2⟩ hopen⟩
      intro line' hline' ctx
      obtain rfl := List.mem_singleton.1 hline'
      cases line' with
      | none => exact P.skips ctx none rfl
      | some s => exact skips_truncated hcodec hm' (hline s rfl) (fun h => hwhole (h ▸ rfl)) ctx

/-! ## The connections of the program -/

/-- A connection whose lines a `StreamHandler` reads, with `out` what it does for a message. -/
def ofStreamHandler (message : ι → String × Json) (InRange : ι → Prop)
    (receive : κ → String → Json → Except DeserializationError (List β))
    (out : κ → ι → List β) (valid : ∀ m, InRange m → (message m).2.Valid)
    (reads : ∀ m ctx payload, InRange m → (message m).2.Same payload →
      receive ctx (message m).1 payload = .ok (out ctx m))
    (unknown : ∀ ctx, receive ctx "" .null = .ok []) : Protocol codec ι κ β where
  message := message
  read ctx := streamHandler codec.fromStr (receive ctx)
  Means m ctx done := done = out ctx m
  InRange := InRange
  valid := valid
  reads m ctx hm := by
    obtain ⟨payload, hsplit, hsame⟩ :=
      splitMessage_serializeMessage codec (message m).1 (valid m hm)
    rw [streamHandler, hsplit]
    simp only [reads m ctx payload hm hsame]
  skips ctx line h := by
    cases line with
    | none => rfl
    | some s =>
        rw [Option.bind_some] at h
        rw [streamHandler, splitMessage, h]
        simp only [unknown ctx]

variable (codec)

def driverToLeader : Protocol codec Driver.ServerLine Addr Msg :=
  ofStreamHandler Driver.ServerLine.message Driver.ServerLine.InRange TcpSender.receive
    (fun _ l => [l.toMsg]) (fun _ => Driver.ServerLine.valid)
    (fun _ addr _ hl => TcpSender.receive_driver addr hl) fun _ => rfl

def passengerToLeader : Protocol codec Passenger.ServerLine Addr Msg :=
  ofStreamHandler Passenger.ServerLine.message Passenger.ServerLine.InRange TcpSender.receive
    (fun addr l => [l.toMsg addr]) (fun _ => Passenger.ServerLine.valid)
    (fun _ addr _ _ => TcpSender.receive_passenger addr) fun _ => rfl

def replicaToLeader : Protocol codec ReplicaLine Addr Msg :=
  ofStreamHandler ReplicaLine.message ReplicaLine.InRange TcpSender.receive
    (fun addr l => [l.toMsg addr]) (fun _ => ReplicaLine.valid)
    (fun _ addr _ hl => TcpSender.receive_replica addr hl) fun _ => rfl

def leaderToPassenger : Protocol codec Line Unit Passenger.Msg :=
  ofStreamHandler Line.message Line.InRange (fun _ => Passenger.TcpReceiver.receive)
    (fun _ => Line.toPassenger) (fun _ => Line.valid)
    (fun _ _ _ hl => Passenger.TcpReceiver.receive_leader hl) fun _ => rfl

/-- What the replica takes over is the state of its leader. -/
def leaderToReplica : Protocol codec UpdateNetworkState (LeaderConnection.State × ℕ)
    LeaderConnection.Effect where
  message state := (Line.pong state).message
  read ctx line := (LeaderConnection.line codec.fromStr ctx.1 ctx.2 line).2
  Means state _ done :=
    ∃ state', done = [.server (.updateNetworkState state')] ∧ state.Same state'
  InRange := UpdateNetworkState.InRange
  valid _ := UpdateNetworkState.valid
  reads state ctx h := by
    obtain ⟨payload, hsplit, hsame⟩ :=
      splitMessage_serializeMessage codec (Line.pong state).message.1 (UpdateNetworkState.valid h)
    obtain ⟨state', hread, hsame'⟩ := readPong_of_same h hsame
    refine ⟨state', ?_, hsame'⟩
    simp only [LeaderConnection.line, hsplit]
    simp [Line.message, hread]
  skips ctx line h := by
    cases line with
    | none => rfl
    | some s =>
        rw [Option.bind_some] at h
        simp only [LeaderConnection.line, splitMessage, h]
        rfl

def passengerToDriver : Protocol codec Passenger.DriverLine ℕ Driver.Msg :=
  ofStreamHandler Passenger.DriverLine.message Passenger.DriverLine.InRange
    Driver.PassengerConnection.receive (fun addr l => [l.toMsg addr])
    (fun _ => Passenger.DriverLine.valid)
    (fun _ addr _ hl => Driver.PassengerConnection.receive_passenger addr hl) fun _ => rfl

def driverToPassenger : Protocol codec Driver.PassengerLine Unit Passenger.Msg :=
  ofStreamHandler Driver.PassengerLine.message Driver.PassengerLine.InRange
    (fun _ => Passenger.TcpReceiver.receive) (fun _ l => [l.toMsg])
    (fun _ => Driver.PassengerLine.valid)
    (fun _ _ _ hl => Passenger.TcpReceiver.receive_driver hl) fun _ => rfl

/-- The gateway draws whether it authorizes a payment. -/
def passengerToGateway : Protocol codec Passenger.GatewayLine Bool Gateway.Effect :=
  ofStreamHandler Passenger.GatewayLine.message (fun _ => True) Gateway.TcpConnection.receive
    (fun isAuthorized l => l.effects isAuthorized) (fun l _ => Passenger.GatewayLine.valid l)
    (fun _ isAuthorized _ _ => Gateway.TcpConnection.receive_passenger isAuthorized) fun _ => rfl

def gatewayToPassenger :
    Protocol codec Gateway.PassengerLine Unit Passenger.GatewayConnection.Effect :=
  ofStreamHandler Gateway.PassengerLine.message (fun _ => True)
    (fun _ => Passenger.GatewayConnection.receive true) (fun _ l => l.effects)
    (fun l _ => Gateway.PassengerLine.valid l)
    (fun _ _ _ _ => Passenger.GatewayConnection.receive_gateway) fun _ => rfl

/-- The process of a driver ends in the middle of its second line. -/
def brokenOff : List (Channel.Label Driver.ServerLine) :=
  [.send (.busyDriver "ana"), .send (.availableDriver "ana" (3, 4)), .handle, .write 9, .arrive 5,
    .write 100, .written, .handle, .write 40, .close, .lose 60, .arrive 20, .arrive 100, .eof]

/-- The reader has handed on a second line. -/
def handedOn (c : Channel Driver.ServerLine) : Bool :=
  c.lines.length == 2 && c.sent == [.busyDriver "ana", .availableDriver "ana" (3, 4)]

/-- The leader does what the first line means, and nothing for the rest. -/
theorem carries_compact :
    ∃ c : Channel Driver.ServerLine, handedOn c = true ∧ c.panicked = false ∧
      ∃ n ≤ c.sent.length, (driverToLeader JsonCodec.compact).Carries c n := by
  obtain ⟨c, hrun, hc⟩ : ∃ c, Run (driverToLeader JsonCodec.compact).step (fun _ _ => true = true)
      Channel.init brokenOff c ∧ handedOn c = true :=
    exists_run_of_exec (fun _ _ => true) Channel.init brokenOff handedOn (by decide +kernel)
  refine ⟨c, hc, carries JsonCodec.compact_rejectsTruncated hrun ?_⟩
  rw [handedOn, Bool.and_eq_true] at hc
  rw [eq_of_beq hc.2]
  intro m hm
  simp only [List.mem_cons, List.not_mem_nil, or_false] at hm
  rcases hm with rfl | rfl
  · trivial
  · exact show 3 < 2 ^ 64 ∧ 4 < 2 ^ 64 by decide

end Protocol

end ConcuRide

import ConcuRide.Serialize
import ConcuRide.Server.Messages

set_option autoImplicit false

/-! # The connection of a replica with its leader

The actor of `server/src/server_connection.rs`. It takes the leader to be gone when a `Ping` finds
that more than `MAX_RESPONSE_TIME` seconds have passed since `response_time`, which it sets both
when a line of the leader arrives and when it sends a ping. Moments (`tokio::time::Instant`) and
durations are in nanoseconds. -/

namespace ConcuRide

open Lib

/-- `DriverInfo` of the server, as it is read from a `pong`. -/
instance : FromValue DriverInfo where
  fromValue v := do
    let name ← (v.field? "name").bind fromValue
    let socket ← (v.field? "socket").bind fromValue
    let id ← (v.field? "id").bind fromValue
    let position ← (v.field? "position").bind fromValue
    return { name, socket, id, position }

namespace LeaderConnection

/-- `MAX_RESPONSE_TIME`, in seconds. -/
def MAX_RESPONSE_TIME : ℕ := 5

/-- `Duration::from_secs`. -/
def fromSecs (seconds : ℕ) : ℕ := seconds * 1000000000

/-- `struct ServerConnection`, without the socket and the address of its server. -/
structure State where
  responseTime : ℕ

/-- What the connection sends: a message to its server, or a line to the leader. -/
inductive Effect where
  | server (m : Msg)
  | tcp (line : String)

/-- What reaches the connection: a `Ping` of its server, or a line of the leader (`none` when it
    could not be read). -/
inductive Event where
  | ping
  | line (read : Option String)

/-- The state a `pong` brings. -/
def readPong (payload : Json) : Except DeserializationError UpdateNetworkState := do
  let idsCount ← deserializeField ℕ payload "ids_count"
  let drivers ← deserializeField (HashMap String DriverInfo) payload "drivers"
  let busyDrivers ← deserializeField (HashMap String DriverInfo) payload "busy_drivers"
  let passengers ← deserializeField (HashMap String ℕ) payload "passengers"
  let udpSocketsReplicas ← deserializeField (HashMap ℕ String) payload "udp_sockets_replicas"
  let disconnectedServers ← deserializeField (List ℕ) payload "disconnected_servers"
  return { idsCount, drivers, busyDrivers, passengers, udpSocketsReplicas, disconnectedServers }

variable (toString : Json → String) (fromStr : String → Option Json)

/-- `Handler<Ping>`. -/
def ping (s : State) (now : ℕ) : State × List Effect :=
  let tiempo := now - s.responseTime
  if tiempo > fromSecs MAX_RESPONSE_TIME then
    ({ s with responseTime := now }, [.server .startElection])
  else ({ s with responseTime := now }, [.tcp (serializeMessage toString "ping" .null)])

/-- `StreamHandler`. -/
def line (s : State) (now : ℕ) (read : Option String) : State × List Effect :=
  let s := { s with responseTime := now }
  match read with
  | none => (s, [])
  | some line =>
    let (messageName, payload) := splitMessage fromStr line
    if messageName = "pong" then
      match readPong payload with
      | .error _ => (s, [])
      | .ok update => (s, [.server (.updateNetworkState update)])
    else (s, [])

/-- The handler of an event. -/
def handle (s : State) (now : ℕ) : Event → State × List Effect
  | .ping => ping toString s now
  | .line read => line fromStr s now read

/-- The connection after a sequence of events, each with its moment. -/
def run (s : State) (events : List (ℕ × Event)) : State :=
  events.foldl (fun s e => (handle toString fromStr s e.1 e.2).1) s

/-- The moments do not go back. -/
def Ordered (created : ℕ) (events : List (ℕ × Event)) (now : ℕ) : Prop :=
  (created :: (events.map Prod.fst ++ [now])).Pairwise (· ≤ ·)

/-- The moment of the last line of the leader, or of the creation of the connection. -/
def lastLine (created : ℕ) (events : List (ℕ × Event)) : ℕ :=
  events.foldl (fun last e =>
    match e.2 with
    | .line _ => e.1
    | .ping => last) created

/-- The moment of the last event of any kind. -/
def lastEvent (created : ℕ) (events : List (ℕ × Event)) : ℕ :=
  events.foldl (fun _ e => e.1) created

variable {toString fromStr} {created now : ℕ} {events : List (ℕ × Event)}

/-- Every event sets `response_time`. -/
theorem handle_responseTime (s : State) (now : ℕ) (e : Event) :
    (handle toString fromStr s now e).1.responseTime = now := by
  cases e with
  | ping =>
      simp only [handle, ping]
      split <;> rfl
  | line read =>
      simp only [handle, line]
      split
      · rfl
      · split
        · split <;> rfl
        · rfl

theorem run_responseTime (events : List (ℕ × Event)) :
    (run toString fromStr ⟨created⟩ events).responseTime = lastEvent created events := by
  induction events using List.reverseRecOn with
  | nil => rfl
  | append_singleton events e ih =>
      rw [run, lastEvent, List.foldl_append, List.foldl_append]
      exact handle_responseTime _ _ _

/-- A `Ping` starts an election when nothing has happened for too long. -/
theorem startElection_mem_ping (events : List (ℕ × Event)) :
    .server .startElection ∈
        (handle toString fromStr (run toString fromStr ⟨created⟩ events) now .ping).2 ↔
      now - lastEvent created events > fromSecs MAX_RESPONSE_TIME := by
  have htime : (run toString fromStr ⟨created⟩ events).responseTime = lastEvent created events :=
    run_responseTime events
  rw [← htime]
  simp only [handle, ping]
  split
  · next hlate => simpa using hlate
  · next hlate => simpa using hlate

/-- The last event is a line, or a `Ping`. -/
theorem lastEvent_cases (created : ℕ) (events : List (ℕ × Event)) :
    lastEvent created events = lastLine created events ∨
      (lastEvent created events, .ping) ∈ events := by
  induction events using List.reverseRecOn with
  | nil => exact .inl rfl
  | append_singleton events e ih =>
      obtain ⟨t, e⟩ := e
      rw [lastEvent, lastLine, List.foldl_append, List.foldl_append]
      cases e with
      | ping => exact .inr (by simp)
      | line read => exact .inl rfl

theorem le_lastEvent (h : Ordered created events now) {t : ℕ} {e : Event}
    (he : (t, e) ∈ events) : t ≤ lastEvent created events := by
  induction events using List.reverseRecOn with
  | nil => simp at he
  | append_singleton events last _ =>
      rw [lastEvent, List.foldl_append]
      simp only [List.foldl_cons, List.foldl_nil]
      rcases List.mem_append.1 he with he | he
      · unfold Ordered at h
        rw [List.pairwise_cons, List.pairwise_append, List.map_append, List.pairwise_append] at h
        exact h.2.1.2.2 t (List.mem_map_of_mem he) last.1 (by simp)
      · obtain rfl := List.mem_singleton.1 he
        exact le_refl t

/-- **When a silent leader is detected**: a `Ping` that comes too long after the last line of the
    leader starts an election if and only if every earlier `Ping` was too long ago as well. -/
theorem silent_leader_detected_iff (toString : Json → String) (fromStr : String → Option Json)
    (created now : ℕ) (events : List (ℕ × Event)) (hordered : Ordered created events now)
    (hsilent : now - lastLine created events > fromSecs MAX_RESPONSE_TIME) :
    .server .startElection ∈
        (handle toString fromStr (run toString fromStr ⟨created⟩ events) now .ping).2 ↔
      ∀ t, (t, .ping) ∈ events → now - t > fromSecs MAX_RESPONSE_TIME := by
  rw [startElection_mem_ping]
  constructor
  · intro hlate t ht
    have hle := le_lastEvent hordered ht
    omega
  · intro hpings
    rcases lastEvent_cases created events with hline | hping
    · rw [hline]
      exact hsilent
    · exact hpings _ hping

/-- A leader that answers a `Ping` one second after the creation, and is silent from then on. -/
theorem silent_leader_detected_iff_late :
    .server .startElection ∈
      (handle (fun _ => "") (fun _ => none) (run (fun _ => "") (fun _ => none) ⟨0⟩
        [(fromSecs 1, .ping), (fromSecs 1, .line (some ""))]) (fromSecs 7) .ping).2 :=
  (silent_leader_detected_iff (fun _ => "") (fun _ => none) 0 (fromSecs 7)
    [(fromSecs 1, .ping), (fromSecs 1, .line (some ""))] (by unfold Ordered; decide)
    (by decide)).2 (by simp [fromSecs, MAX_RESPONSE_TIME])

/-- The pings of `servidor_replica`, one every `MAX_RESPONSE_TIME - 1` seconds. -/
def pings (n : ℕ) : List (ℕ × Event) :=
  (List.range n).map fun k => (fromSecs ((k + 1) * (MAX_RESPONSE_TIME - 1)), .ping)

/-- A leader that never sends a line is never found to be silent by these pings. -/
theorem pings_find_nothing (toString : Json → String) (fromStr : String → Option Json) (n : ℕ) :
    .server .startElection ∉ (handle toString fromStr
      (run toString fromStr ⟨0⟩ (pings n)) (fromSecs ((n + 1) * (MAX_RESPONSE_TIME - 1))) .ping).2 := by
  have hlast : lastEvent 0 (pings n) = fromSecs (n * (MAX_RESPONSE_TIME - 1)) := by
    cases n with
    | zero => rfl
    | succ n => rw [pings, List.range_succ, List.map_append, lastEvent, List.foldl_append]; rfl
  rw [startElection_mem_ping, hlast]
  simp only [fromSecs, MAX_RESPONSE_TIME]
  omega

theorem not_silent_leader_detected : ¬ ∀ (toString : Json → String)
    (fromStr : String → Option Json) (created now : ℕ) (events : List (ℕ × Event)),
    Ordered created events now → now - lastLine created events > fromSecs MAX_RESPONSE_TIME →
    .server .startElection ∈
      (handle toString fromStr (run toString fromStr ⟨created⟩ events) now .ping).2 := by
  intro h
  refine pings_find_nothing (fun _ => "") (fun _ => none) 3 (h _ _ 0 _ (pings 3) ?_ ?_)
  · unfold Ordered
    decide
  · decide

end LeaderConnection

end ConcuRide

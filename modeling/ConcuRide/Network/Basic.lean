import Mathlib.Logic.Function.Basic
import ConcuRide.Server.Cases

set_option autoImplicit false

/-! # The group of servers

The processes of several servers with their mailboxes, the datagrams between them and the `pong`
lines their leaders send. Every step of the group is a `Label`: a server handles the next message of
its mailbox, something outside reaches a server, a datagram is delivered, lost or duplicated, a
process crashes or is started. `Net.step` computes the group after a step.

The servers run on one machine: a datagram to a port nobody has open is lost when it is sent, and
whatever waits in the sockets of a process is lost when that process dies. -/

namespace ConcuRide

/-! ## State of the group -/

/-- A running server process: its `Server` actor, the actor's mailbox, and whether `main` has
    connected it to another server (`servidor_lider` connects to nobody). -/
structure Proc where
  srv : Server
  mailbox : List Msg
  dialled : Bool

/-- What a datagram between two servers carries. -/
inductive Body where
  | msg (m : ElectionMsg)
  | ack (a : NeighborAck)
deriving DecidableEq, Repr

/-- A datagram from the given start of server `src` to the UDP port of server `dst`. -/
structure Packet where
  src : ℕ
  session : ℕ
  dst : ℕ
  body : Body
deriving DecidableEq, Repr

/-- A `pong` line on the TCP connection the given start of server `dst` opened to server `src`. -/
structure PongLine where
  src : ℕ
  dst : ℕ
  session : ℕ
  state : UpdateNetworkState

/-- What is remembered of the past of the group. Nothing below reads it back: it serves to state
    properties of runs. -/
inductive Event where
  /-- `src` sent `m` to its neighbour -/
  | sent (src : ℕ) (m : ElectionMsg)
  /-- `dst` received `m` from the given start of `src`, and acknowledged it -/
  | delivered (src session dst : ℕ) (m : ElectionMsg)
  /-- `s` handled `NewLeader` -/
  | heard (s : ℕ) (m : NewLeader)
  /-- `s` handled the `SetLeader` of its start-up -/
  | joined (s : ℕ)
  /-- the leader connection of `s` was dropped -/
  | cleared (s : ℕ)
  /-- `s` stopped repeating `m` -/
  | stopped (s : ℕ) (m : ElectionMsg)
  /-- `s` could not connect to its new leader -/
  | gaveUp (s : ℕ)
  /-- `s` was started as a replica -/
  | booted (s : ℕ)
deriving DecidableEq, Repr

/-- The servers by id (`none` for a process that is not running), how often each was started, the
    datagrams and `pong` lines under way, and the past, newest event first. -/
structure Net where
  procs : ℕ → Option Proc
  boots : ℕ → ℕ
  flight : List Packet
  pongs : List PongLine
  log : List Event

namespace Net

/-- The group that consists of the process of `servidor_lider(l)`, started once. -/
def start (N l : ℕ) : Net where
  procs := fun s => if s = l then some ⟨Server.lider N l, [], false⟩ else none
  boots := fun s => if s = l then 1 else 0
  flight := []
  pongs := []
  log := []

variable (net : Net)

def live (s : ℕ) : Bool := (net.procs s).isSome

/-- The state of server `s`, if it runs. -/
def srv (s : ℕ) : Option Server := (net.procs s).map Proc.srv

/-- Server `s` runs and has its UDP port open. -/
def hasUdp (s : ℕ) : Bool := (net.procs s).any (fun p => p.srv.udpSender)

/-- Server `s` accepts TCP connections. -/
def listening (s : ℕ) : Bool := (net.procs s).any (fun p => p.srv.imLeader)

/-- The given start of server `s` is still running. -/
def isUp (s session : ℕ) : Bool := net.live s && decide (net.boots s = session)

/-- The mailbox of `s`. -/
def mailbox (s : ℕ) : List Msg := (net.procs s).elim [] Proc.mailbox

/-- Message `m` is in the mailbox of `s`. -/
def Queued (s : ℕ) (m : Msg) : Prop := m ∈ net.mailbox s

/-! ## Effects -/

/-- The datagrams of `s` that reach the socket of a running server. -/
def packets (s : ℕ) (effects : List Effect) : List Packet :=
  ((datagrams effects).filter (fun d => net.hasUdp d.1)).map fun d =>
    { src := s, session := net.boots s, dst := d.1, body := .msg d.2 }

/-- The `pong` lines of `s` on connections whose other end is still there. -/
def pongLines (s : ℕ) (effects : List Effect) : List PongLine :=
  effects.filterMap fun
    | .tcp (.server id session) (.pong state) =>
      if net.isUp id session then some ⟨s, id, session, state⟩ else none
    | _ => none

/-- What the past remembers of a handled message. -/
def handledEvents (s : ℕ) (o : Oracle) (srv : Server) : Msg → List Event
  | .newLeader m => [.heard s m]
  | .setLeader _ => [.joined s]
  | .checkIfNeighborAcked c =>
    if c.sequenceNumber ∈ srv.messageReceivedAck then [.stopped s c.serializedMsg] else []
  | .connectToServer => if o.stream.isNone then [.gaveUp s] else []
  | _ => []

def clearedEvents (s : ℕ) (before after : Server) : List Event :=
  if before.leaderConnection.isSome && after.leaderConnection.isNone then [.cleared s] else []

def sentEvents (s : ℕ) (effects : List Effect) : List Event :=
  (datagrams effects).map fun d => .sent s d.2

/-! ## Steps -/

/-- Put a message in the mailbox of a server. -/
def enqueue (s : ℕ) (m : Msg) : Net :=
  { net with
    procs := Function.update net.procs s
      ((net.procs s).map fun p => { p with mailbox := p.mailbox ++ [m] }) }

/-- The process of `s` dies, and with it whatever waits in its sockets. -/
def crash (s : ℕ) : Net :=
  { net with
    procs := Function.update net.procs s none
    flight := net.flight.filter (fun d => d.dst ≠ s)
    pongs := net.pongs.filter (fun line => line.dst ≠ s) }

/-- The group after `s` has handled `m`, the first message of its mailbox. -/
def handled (s : ℕ) (p : Proc) (m : Msg) (rest : List Msg) (o : Oracle) (srv : Server)
    (effects : List Effect) : Net where
  procs := Function.update net.procs s
    (some { p with srv := srv, mailbox := rest ++ selfMessages effects })
  boots := net.boots
  flight := net.flight ++ net.packets s effects
  pongs := net.pongs ++ net.pongLines s effects
  log := sentEvents s effects ++ clearedEvents s p.srv srv ++ handledEvents s o p.srv m ++ net.log

/-- Whether the outside can give these answers: a connection is found dead only when its other end
    is, and a connection is opened only to a server that listens. -/
def answers (srv : Server) (m : Msg) (o : Oracle) : Bool :=
  match m with
  | .ping => o.connected || srv.leaderConnection.all (fun c => !net.isUp c.server c.session)
  | .connectToServer =>
    o.stream.all fun c =>
      decide (c = ⟨srv.idLeader, net.boots srv.idLeader⟩) && net.listening srv.idLeader
  | _ => true

/-- Server `s` handles the next message of its mailbox. A handler that panics ends the process. -/
def recv (N : ℕ) (s : ℕ) (o : Oracle) : Option Net :=
  match net.procs s with
  | none => none
  | some p =>
    match p.mailbox with
    | [] => none
    | m :: rest =>
      if net.answers p.srv m o then
        match p.srv.handle N o m with
        | none => some (net.crash s)
        | some (srv, effects) => some (net.handled s p m rest o srv effects)
      else none

/-- Whether a message from outside can reach server `srv`: the lines of clients and replicas reach a
    server that listens, `get_leader` one that has its UDP port open. -/
def reaches (srv : Server) : Msg → Bool
  | .ping => true
  | .sendLeaderId _ => srv.udpSender
  | m => m.isExternal && srv.imLeader

/-- The acknowledgement that an `UdpReceiver` answers a datagram with. -/
def ackOf (d : Packet) (m : ElectionMsg) : Packet where
  src := d.dst
  session := net.boots d.dst
  dst := d.src
  body := .ack { id := 0, message := m, sequenceNumber := m.sequenceNumber }

/-- The group after `d`, the `i`-th datagram, has brought the election message `m`. -/
def received (i : ℕ) (d : Packet) (m : ElectionMsg) : Net :=
  { net.enqueue d.dst m.toMsg with
    flight := net.flight.eraseIdx i ++ (if net.hasUdp d.src then [net.ackOf d m] else [])
    log := .delivered d.src d.session d.dst m :: net.log }

/-- The `i`-th datagram reaches its destination, which acknowledges an election message at once. -/
def deliver (i : ℕ) : Option Net :=
  match net.flight[i]? with
  | none => none
  | some d =>
    if !net.hasUdp d.dst then some { net with flight := net.flight.eraseIdx i }
    else
      match d.body with
      | .ack a =>
        some ({ net with flight := net.flight.eraseIdx i }.enqueue d.dst (.neighborAck a))
      | .msg m => some (net.received i d m)

/-- The `i`-th `pong` line arrives; the lines of one connection arrive in order. -/
def pongArrives (i : ℕ) : Option Net :=
  match net.pongs[i]? with
  | none => none
  | some line =>
    if (net.pongs.take i).any (fun l => l.src = line.src ∧ l.dst = line.dst) then none
    else
      let rest := { net with pongs := net.pongs.eraseIdx i }
      if net.isUp line.dst line.session then
        some (rest.enqueue line.dst (.updateNetworkState line.state))
      else some rest

/-- `main` starts `servidor_replica(s)`. -/
def boot (N s : ℕ) : Net :=
  { net with
    procs := Function.update net.procs s (some ⟨Server.replica N s, [], false⟩)
    boots := Function.update net.boots s (net.boots s + 1)
    log := .booted s :: net.log }

/-- `servidor_replica` looks for a server to connect to, and ends when there is none. -/
def dial (N s : ℕ) : Option Net :=
  match net.procs s with
  | none => none
  | some p =>
    if p.dialled || !p.srv.udpSender then none
    else
      match dialLeader N net.listening s with
      | none => some (net.crash s)
      | some (k, leaderId) =>
        let msg : SetLeader := { idLeader := leaderId, leaderConnection := ⟨k, net.boots k⟩ }
        some { net with
          procs := Function.update net.procs s
            (some { p with mailbox := p.mailbox ++ [.setLeader msg], dialled := true }) }

end Net

/-- One step of the group. -/
inductive Label where
  /-- server `s` handles the next message of its mailbox -/
  | recv (s : ℕ) (o : Oracle)
  /-- a message from outside reaches server `s` -/
  | post (s : ℕ) (m : Msg)
  /-- the `i`-th datagram is delivered -/
  | deliver (i : ℕ)
  /-- the `i`-th datagram is lost -/
  | drop (i : ℕ)
  /-- the `i`-th datagram is duplicated -/
  | duplicate (i : ℕ)
  /-- the `i`-th `pong` line arrives -/
  | pongArrives (i : ℕ)
  /-- the connection of `s` has not heard from its leader for `MAX_RESPONSE_TIME` -/
  | silence (s : ℕ)
  | crash (s : ℕ)
  | boot (s : ℕ)
  | dial (s : ℕ)

namespace Net

/-- The group after a step, if the step is possible. -/
def step (N : ℕ) (net : Net) : Label → Option Net
  | .recv s o => net.recv N s o
  | .post s m =>
    if (net.procs s).any (fun p => reaches p.srv m) then some (net.enqueue s m) else none
  | .deliver i => net.deliver i
  | .drop i =>
    if i < net.flight.length then some { net with flight := net.flight.eraseIdx i } else none
  | .duplicate i => net.flight[i]?.map fun d => { net with flight := net.flight ++ [d] }
  | .pongArrives i => net.pongArrives i
  | .silence s =>
    if (net.procs s).any (fun p => p.dialled) then some (net.enqueue s .startElection) else none
  | .crash s => if net.live s then some (net.crash s) else none
  | .boot s => if !net.live s ∧ 1 ≤ s ∧ s ≤ N then some (net.boot N s) else none
  | .dial s => net.dial N s

/-! ## Timely acknowledgements -/

variable (net : Net)

/-- The datagram a `CheckIfNeighborAcked` of `s` asks about is on its way or has arrived. -/
def onItsWay (s : ℕ) (c : CheckIfNeighborAcked) : Bool :=
  net.flight.any (fun d =>
      d = { src := s, session := net.boots s, dst := c.neighborId, body := .msg c.serializedMsg }) ||
    net.log.any (fun e => e = .delivered s (net.boots s) c.neighborId c.serializedMsg)

/-- Datagrams are delivered once, and the acknowledgement of a datagram that is not lost with its
    destination is handled before the `CheckIfNeighborAcked` that asks for it. -/
def timely : Label → Bool
  | .recv s _ =>
    match net.mailbox s with
    | .checkIfNeighborAcked c :: _ =>
      !net.onItsWay s c ||
        (net.srv s).any (fun srv => decide (c.sequenceNumber ∈ srv.messageReceivedAck))
    | _ => true
  | .drop _ | .duplicate _ => false
  | _ => true

end Net

end ConcuRide

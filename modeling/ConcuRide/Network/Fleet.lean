import ConcuRide.Network.Basic
import ConcuRide.Server.Availability

set_option autoImplicit false

/-! # The servers and the drivers

The group of servers together with driver processes, the lines the drivers send over TCP and the
mailboxes these lines end in. Drivers never crash: a handler that panics is no step. Which lines a
driver has sent since the leader crashed, and which of them have been handled, is kept beside. -/

namespace ConcuRide

open Lib

/-- A line of a driver: whose it is, and how many lines that driver had sent before it since the
    leader crashed. A line that is sent again keeps its number. -/
structure Update where
  driver : String
  number : ℕ
  line : Driver.ServerLine
deriving DecidableEq, Repr

/-- The servers; the drivers by name, with their mailboxes (a `reconnect` beside the number of the
    line it repeats); how many connections drivers have opened; the lines under way; the lines in
    the mailbox of each server; and of the past the lines each driver has sent and whose lines
    leaders have handled since the leader crashed, and whether it has. -/
structure Fleet where
  net : Net
  drivers : HashMap String (Driver × List (Driver.Msg × ℕ))
  opened : ℕ
  lines : List (Driver.Link × Update)
  inbox : ℕ → List Update
  sent : String → List Driver.ServerLine
  handled : List String
  crashed : Bool

namespace Net

/-- A leader is gone after a step. -/
def leaderGone (N : ℕ) (net net' : Net) : Bool :=
  (List.range (N + 1)).any fun k => net.listening k && !net'.listening k

/-- A server is leader after a step that was not before. -/
def leaderElected (N : ℕ) (net net' : Net) : Bool :=
  (List.range (N + 1)).any fun k => !net.listening k && net'.listening k

/-- Both ends of the connection are there. -/
def holds (net : Net) (link : Driver.Link) : Bool :=
  net.isUp link.server.server link.server.session

end Net

namespace Fleet

/-- The fleet that consists of `servidor_lider(l)`. -/
def start (N l : ℕ) : Fleet where
  net := Net.start N l
  drivers := ∅
  opened := 0
  lines := []
  inbox := fun _ => []
  sent := fun _ => []
  handled := []
  crashed := false

variable (f : Fleet)

/-! ## Drivers -/

/-- The connection `connect_to_server_leader` opens, if a server listens. -/
def connect (N : ℕ) : Option Driver.Link :=
  (connectToServerLeader f.net.listening N).map fun k => ⟨⟨k, f.net.boots k⟩, f.opened⟩

/-- Whether the outside can give driver `d` these answers: a connection is found dead only when its
    other end is. -/
def answers (N : ℕ) (d : Driver) (m : Driver.Msg) (o : Driver.Oracle) : Bool :=
  (o.connected || d.serverReceiver.all fun link => !f.net.holds link) &&
    (!m.isReconnect || decide (o.server = f.connect N))

/-- The fleet after driver `name` has handled `m`, the first message of its mailbox. -/
def driverHandled (name : String) (m : Driver.Msg) (number : ℕ) (rest : List (Driver.Msg × ℕ))
    (d : Driver) (effects : List Driver.Effect) : Fleet :=
  let sent := f.sent name
  let number := if m.isReconnect then number else sent.length
  let lines := Driver.serverLines effects
  { f with
    drivers := f.drivers.insert name
      (d, rest ++ (Driver.selfMessages effects).map fun m => (m, number))
    opened := if m.isReconnect then f.opened + 1 else f.opened
    lines := f.lines ++ (lines.filter (fun l => f.net.holds l.1)).map fun l =>
      (l.1, { driver := name, number := number, line := l.2 })
    sent := if m.isReconnect then f.sent
      else Function.update f.sent name (sent ++ lines.map Prod.snd) }

/-- Driver `name` handles the next message of its mailbox. -/
def driverRecv (N : ℕ) (name : String) (o : Driver.Oracle) : Option Fleet :=
  match f.drivers.lookup name with
  | none => none
  | some (d, mailbox) =>
    match mailbox with
    | [] => none
    | (m, number) :: rest =>
      if f.answers N d m o then
        (d.handle o m).map fun (d, effects) => f.driverHandled name m number rest d effects
      else none

/-- `main` of a driver that was never started before, on a fresh socket; it ends when no server
    listens. -/
def startDriver (N : ℕ) (name socket : String) (position : Position) : Option Fleet :=
  (f.connect N).map fun link =>
    { f with
      drivers := f.drivers.insert name
        (Driver.start name socket position link,
          [(.setReceiver link, 0),
            (.register { socket := socket, name := name, position := position }, 0)])
      opened := f.opened + 1 }

/-- A passenger reaches driver `name`. -/
def driverPost (name : String) (m : Driver.Msg) : Option Fleet :=
  (f.drivers.lookup name).map fun (d, mailbox) =>
    { f with drivers := f.drivers.insert name (d, mailbox ++ [(m, 0)]) }

/-! ## Servers -/

/-- The lines in the mailbox of each server after `s` has handled its next message. -/
def popped (s : ℕ) : List Update :=
  match f.net.mailbox s with
  | m :: _ => if m.fromDriver then f.inbox s |>.tail else f.inbox s
  | [] => f.inbox s

/-- Whose line `s` handles next, if it is a line. -/
def nextUpdate (s : ℕ) : Option Update :=
  match f.net.mailbox s with
  | m :: _ => if m.fromDriver then (f.inbox s).head? else none
  | [] => none

/-- The fleet after a step of the servers. -/
def served (N : ℕ) (l : ConcuRide.Label) (net : Net) : Fleet :=
  let gone := f.net.leaderGone N net
  { f with
    net := net
    lines := f.lines.filter fun x => net.holds x.1
    inbox := fun s =>
      if net.live s then
        match l with
        | .recv k _ => if s = k then f.popped s else f.inbox s
        | _ => f.inbox s
      else []
    sent := if gone then fun _ => [] else f.sent
    handled := if gone then []
      else
        match l with
        | .recv k _ => ((f.nextUpdate k).map Update.driver).toList ++ f.handled
        | _ => f.handled
    crashed := gone || f.crashed }

/-- A step of the servers. The lines of drivers come from drivers only. -/
def serverStep (N : ℕ) (l : ConcuRide.Label) : Option Fleet :=
  match l with
  | .post _ m => if m.fromDriver then none else (f.net.step N l).map (f.served N l)
  | _ => (f.net.step N l).map (f.served N l)

/-- The `i`-th line arrives; the lines on one connection arrive in order. -/
def lineArrives (i : ℕ) : Option Fleet :=
  match f.lines[i]? with
  | none => none
  | some (link, u) =>
    if (f.lines.take i).any (fun x => decide (x.1 = link)) then none
    else
      let s := link.server.server
      some { f with
        net := f.net.enqueue s u.line.toMsg
        lines := f.lines.eraseIdx i
        inbox := Function.update f.inbox s (f.inbox s ++ [u]) }

/-! ## Steps -/

inductive Label where
  /-- a step of the servers -/
  | server (l : ConcuRide.Label)
  /-- a driver process is started -/
  | startDriver (name socket : String) (position : Position)
  /-- a passenger reaches driver `name` -/
  | driverPost (name : String) (m : Driver.Msg)
  /-- driver `name` handles the next message of its mailbox -/
  | driverRecv (name : String) (o : Driver.Oracle)
  /-- the `i`-th line of a driver arrives -/
  | lineArrives (i : ℕ)

/-- The fleet after a step, if the step is possible. -/
def step (N : ℕ) (f : Fleet) : Label → Option Fleet
  | .server l => f.serverStep N l
  | .startDriver name socket position =>
    if name ∈ f.drivers then none else f.startDriver N name socket position
  | .driverPost name m => if m.isExternal then f.driverPost name m else none
  | .driverRecv name o => f.driverRecv N name o
  | .lineArrives i => f.lineArrives i

/-- The runs of one failover: a server becomes leader only while there is none, and once a leader
    has crashed no leader crashes again. -/
def oneFailover (N : ℕ) (f : Fleet) : Label → Bool
  | .server l =>
    (f.net.step N l).all fun net =>
      (!f.net.leaderElected N net || (List.range (N + 1)).all fun k => !f.net.listening k) &&
        (!f.crashed || !f.net.leaderGone N net)
  | _ => true

end Fleet

end ConcuRide

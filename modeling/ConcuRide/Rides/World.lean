import ConcuRide.Driver.Process
import ConcuRide.Passenger.Search

set_option autoImplicit false

/-! # A passenger and the drivers

One passenger process, the drivers it may ask for a ride, and the lines between them. The passenger
and the drivers may crash between any two handlers and are started again with the recovery flag. The
leader answers every `get_drivers` once, with any list of drivers, and the gateway answers every
`AuthorizePayment` once. Other passengers may ask the drivers for rides at any time. -/

namespace ConcuRide

open Lib

/-- Where a connection of the passenger leads: to a start of a driver, and back to a start of the
    passenger. -/
structure Route where
  driver : String
  start : ℕ
  session : ℕ
deriving DecidableEq, Repr

/-- What there is at a moment. `own` numbers are those of connections this passenger opens. -/
structure World where
  /-- the passenger and its mailbox, `none` while the program is not running -/
  passenger : Option (Passenger × List Passenger.Msg)
  /-- how often the passenger was started again -/
  session : ℕ
  /-- the file with the saved state of the passenger -/
  file : Option Json
  drivers : String → Driver.Process
  /-- how often each driver was started -/
  starts : String → ℕ
  routes : ℕ → Option Route
  /-- the connections to a leader that is gone -/
  dead : ℕ → Bool
  /-- the connections to a leader on which it owes the answer to a `get_drivers` -/
  asks : List ℕ
  /-- how many `AuthorizePayment` the gateway has not answered -/
  auths : ℕ
  /-- the lines on their way from the passenger to drivers, with their connections -/
  up : List (ℕ × Passenger.DriverLine)
  /-- the lines on their way from drivers to the passenger, with their connections -/
  down : List (ℕ × Driver.PassengerLine)
  /-- how often a driver has accepted a ride of the passenger -/
  accepted : ℕ
  /-- how many `driver_arrived` the passenger has received -/
  arrivals : ℕ

/-- The message a driver's `PassengerConnection` hands to the driver for a line. -/
def Passenger.DriverLine.toMsg (addr : ℕ) : Passenger.DriverLine → Driver.Msg
  | .requestRide id origin destination => .requestRide ⟨id, origin, destination, addr⟩
  | .reconnectDriver position => .reconnectPassenger addr position
  | .recover idPassenger => .passengerRecover idPassenger addr

/-- The message a passenger's `TcpReceiver` hands to the passenger for a line of a driver. -/
def Driver.PassengerLine.toMsg : Driver.PassengerLine → Passenger.Msg
  | .no => .keepLooking
  | .ok driverSocket => .rideAccepted driverSocket
  | .driverArrived => .driverArrived
  | .recoverResponse pickedUp position endRide => .recoverResponse ⟨pickedUp, position, endRide⟩

def Driver.PassengerLine.isOk : Driver.PassengerLine → Bool
  | .ok _ => true
  | _ => false

def Driver.PassengerLine.isArrived : Driver.PassengerLine → Bool
  | .driverArrived => true
  | _ => false

/-- The messages of other passengers, whose connections are not `own`. -/
def Driver.Msg.isForeign (own : ℕ → Bool) : Driver.Msg → Bool
  | .newConnection _ => true
  | .requestRide r => !own r.addr
  | .passengerRecover _ addr | .reconnectPassenger addr _ => !own addr
  | _ => false

/-- The lines of the leader that are no answers. -/
def Passenger.Msg.isNotice : Passenger.Msg → Bool
  | .completeLogin _ | .reconnectDriver _ => true
  | _ => false

namespace World

inductive Label where
  /-- the passenger handles the next message of its mailbox; if it opens a connection to a driver,
      then to this one -/
  | recv (o : Passenger.Oracle) (driver : String)
  /-- a line of the leader arrives at the passenger -/
  | notice (m : Passenger.Msg)
  /-- the answer to the `i`-th `get_drivers` arrives -/
  | answer (i : ℕ) (driversInfo : List Passenger.DriverInfo)
  /-- the answer to an `AuthorizePayment` arrives -/
  | gateway (isAuthorized : Bool)
  /-- the connection `k` to the leader is lost -/
  | linkDies (k : ℕ)
  /-- the `i`-th line on its way to a driver arrives -/
  | toDriver (i : ℕ)
  /-- the `i`-th line on its way to the passenger arrives -/
  | toPassenger (i : ℕ)
  /-- a driver handles the next message of its mailbox -/
  | drives (d : String) (o : Driver.Oracle)
  /-- a message of another passenger arrives at a driver -/
  | foreign (d : String) (m : Driver.Msg)
  | crashPassenger
  /-- the passenger is started with the recovery flag, connected to the leader by `k` -/
  | restartPassenger (position destination : Position) (k : ℕ)
  | crashDriver (d : String)
  /-- a driver is started, with the recovery flag if it has saved a state -/
  | startDriver (d : String) (at_ : Driver.Launch)

/-- The first messages of a passenger, with the state that `main` reads when it recovers. -/
def launched (name : String) (k : ℕ) (status : Option Json) : List Passenger.Msg :=
  .setReceiver k ::
    match status with
    | some status => [.recover status]
    | none => [.login name, .getDrivers]

/-- The passenger is started for the first time; no driver runs. -/
def init (name : String) (position destination : Position) (k : ℕ) : World where
  passenger := some (Passenger.start name position destination false k, launched name k none)
  session := 0
  file := none
  drivers := fun _ => .init
  starts := fun _ => 0
  routes := fun _ => none
  dead := fun _ => false
  asks := []
  auths := 0
  up := []
  down := []
  accepted := 0
  arrivals := 0

variable (distance : Position → Position → ℕ) (own : ℕ → Bool) (w : World)

/-- `receiver.connected()` is false only after the leader is gone, and a connection is only opened
    to a leader that is there. -/
def linkOk (p : Passenger) (o : Passenger.Oracle) : Bool :=
  (o.connected || p.serverReceiver.all w.dead) && o.server.all fun k => !w.dead k

/-- The connection `new_connection` opens, if any, is a new one to a running driver that listens on
    the socket. -/
def reaches (p : Passenger) (m : Passenger.Msg) (o : Passenger.Oracle) (d : String) : Bool :=
  o.driver.all fun n =>
    own n && (w.routes n).isNone &&
      (w.drivers d).actor.any fun a => (p.dials distance m).any fun socket =>
        decide (a.1.driverSocket = socket)

/-- The program of the passenger ends. -/
def endPassenger : World := { w with passenger := none }

/-- The passenger is started with the recovery flag. It has new connections to the leader and the
    gateway, so that it gets no answers to what an earlier start has asked. -/
def restart (name : String) (position destination : Position) (k : ℕ) : World :=
  { w with
    passenger := some (Passenger.start name position destination true k, launched name k w.file)
    session := w.session + 1
    asks := []
    auths := 0 }

/-- What handling a message leads to. -/
def handled (o : Passenger.Oracle) (d : String) (t : Passenger) (rest : List Passenger.Msg)
    (effects : List Passenger.Effect) : World :=
  { w with
    passenger := some (t, rest ++ Passenger.selfMessages effects)
    file := (Passenger.saves effects).foldl (fun _ status => some status) w.file
    routes := o.driver.elim w.routes fun n =>
      Function.update w.routes n (some ⟨d, w.starts d, w.session⟩)
    asks := w.asks ++
      if w.dead t.serverSender then [] else List.replicate (Passenger.asks effects) t.serverSender
    auths := w.auths + Passenger.authorizations effects
    up := w.up ++ (Passenger.driverLines effects).map fun l => (l.1.number, l.2) }

/-- What a handler that panics leaves behind: `Traveling` saves the state and then moves. -/
def panicked (p : Passenger) (m : Passenger.Msg) : World :=
  match m with
  | .traveling => { w.endPassenger with file := some p.status }
  | _ => w.endPassenger

/-- The passenger handles the next message of its mailbox. A handler that panics ends the program. -/
def recv (o : Passenger.Oracle) (d : String) : Option World :=
  match w.passenger with
  | none | some (_, []) => none
  | some (p, m :: rest) =>
    if w.linkOk p o && w.reaches distance own p m o d then
      match p.handle distance o m with
      | none => some (w.panicked p m)
      | some (t, effects) => some (w.handled o d t rest effects)
    else none

/-- Put messages in the mailbox of the passenger. -/
def enqueue (messages : List Passenger.Msg) : Option World :=
  w.passenger.map fun a => { w with passenger := some (a.1, a.2 ++ messages) }

/-- The world with another state of driver `d`. -/
def setDriver (d : String) (s : Driver.Process) : World :=
  { w with drivers := Function.update w.drivers d s }

/-- The `i`-th line on its way to a driver arrives, if the start it was meant for is still there. -/
def toDriver (i : ℕ) : Option World := do
  let (n, line) ← w.up[i]?
  let r ← w.routes n
  if r.start = w.starts r.driver then
    let s ← (w.drivers r.driver).enqueue (line.toMsg n)
    return { w.setDriver r.driver s with up := w.up.eraseIdx i }
  else none

/-- The `i`-th line on its way to the passenger arrives, if the start it was meant for is still
    there. -/
def toPassenger (i : ℕ) : Option World := do
  let (n, line) ← w.down[i]?
  let r ← w.routes n
  if r.session = w.session then
    let w ← w.enqueue [line.toMsg]
    return { w with
      down := w.down.eraseIdx i
      arrivals := if line.isArrived then w.arrivals + 1 else w.arrivals }
  else none

/-- Driver `d` handles the next message of its mailbox. -/
def drives (d : String) (o : Driver.Oracle) : Option World := do
  let (s, effects) ← (w.drivers d).recv o
  let lines := (Driver.passengerLines effects).filter fun l => own l.1
  return { w.setDriver d s with
    down := w.down ++ lines
    accepted := w.accepted + lines.countP fun l => l.2.isOk }

/-- How `main` starts a driver: with the state it saved last, if there is one. -/
def startLabel (s : Driver.Process) (at_ : Driver.Launch) : Driver.Process.Label :=
  if s.versions = [] then .launch at_ else .recover 0 at_

/-- The world after a step, if the step is possible. -/
def step (name : String) (w : World) : Label → Option World
  | .recv o d => w.recv distance own o d
  | .notice m => if m.isNotice then w.enqueue [m] else none
  | .answer i driversInfo =>
    if i < w.asks.length then
      { w with asks := w.asks.eraseIdx i }.enqueue [.drivers driversInfo]
    else none
  | .gateway isAuthorized =>
    if 0 < w.auths then
      { w with auths := w.auths - 1 }.enqueue (Passenger.paymentAuthorizationStatus isAuthorized)
    else none
  | .linkDies k =>
    some { w with dead := Function.update w.dead k true, asks := w.asks.filter (· ≠ k) }
  | .toDriver i => w.toDriver i
  | .toPassenger i => w.toPassenger i
  | .drives d o => w.drives own d o
  | .foreign d m =>
    if m.isForeign own then ((w.drivers d).enqueue m).map (w.setDriver d) else none
  | .crashPassenger => if w.passenger.isSome then some w.endPassenger else none
  | .restartPassenger position destination k =>
    if w.passenger.isNone && !w.dead k then some (w.restart name position destination k) else none
  | .crashDriver d => ((w.drivers d).step d .crash).map (w.setDriver d)
  | .startDriver d at_ =>
    ((w.drivers d).step d (startLabel (w.drivers d) at_)).map fun s =>
      { w.setDriver d s with starts := Function.update w.starts d (w.starts d + 1) }

/-! ## What a step does -/

/-- **The steps of the world**, one case for each way a step is possible. -/
inductive Step (name : String) : Label → World → Prop
  | handles {o : Passenger.Oracle} {d : String} {p t : Passenger} {m : Passenger.Msg}
      {rest : List Passenger.Msg} {effects : List Passenger.Effect}
      (hactor : w.passenger = some (p, m :: rest)) (hlink : w.linkOk p o = true)
      (hh : p.handle distance o m = some (t, effects)) :
      Step name (.recv o d) (w.handled o d t rest effects)
  | panics {o : Passenger.Oracle} {d : String} {p : Passenger} {m : Passenger.Msg}
      {rest : List Passenger.Msg} (hactor : w.passenger = some (p, m :: rest))
      (hh : p.handle distance o m = none) : Step name (.recv o d) (w.panicked p m)
  | notice {m : Passenger.Msg} {w' : World} (hm : m.isNotice = true)
      (h : w.enqueue [m] = some w') : Step name (.notice m) w'
  | answer {i : ℕ} {driversInfo : List Passenger.DriverInfo} {w' : World} (hi : i < w.asks.length)
      (h : { w with asks := w.asks.eraseIdx i }.enqueue [.drivers driversInfo] = some w') :
      Step name (.answer i driversInfo) w'
  | gateway {isAuthorized : Bool} {w' : World} (hauths : 0 < w.auths)
      (h : { w with auths := w.auths - 1 }.enqueue
        (Passenger.paymentAuthorizationStatus isAuthorized) = some w') :
      Step name (.gateway isAuthorized) w'
  | linkDies (k : ℕ) : Step name (.linkDies k)
      { w with dead := Function.update w.dead k true, asks := w.asks.filter (· ≠ k) }
  | toDriver {i n : ℕ} {line : Passenger.DriverLine} {d : String} {s : Driver.Process}
      (hline : w.up[i]? = some (n, line)) (h : (w.drivers d).enqueue (line.toMsg n) = some s) :
      Step name (.toDriver i) { w.setDriver d s with up := w.up.eraseIdx i }
  | toPassenger {i n : ℕ} {line : Driver.PassengerLine} {p : Passenger}
      {mailbox : List Passenger.Msg} (hline : w.down[i]? = some (n, line))
      (hactor : w.passenger = some (p, mailbox)) :
      Step name (.toPassenger i) { w with
        passenger := some (p, mailbox ++ [line.toMsg])
        down := w.down.eraseIdx i
        arrivals := if line.isArrived then w.arrivals + 1 else w.arrivals }
  | drives {d : String} {o : Driver.Oracle} {s : Driver.Process} {effects : List Driver.Effect}
      {lines : List (ℕ × Driver.PassengerLine)}
      (hrecv : (w.drivers d).recv o = some (s, effects))
      (hlines : lines = (Driver.passengerLines effects).filter fun l => own l.1) :
      Step name (.drives d o) { w.setDriver d s with
        down := w.down ++ lines
        accepted := w.accepted + lines.countP fun l => l.2.isOk }
  | foreign {d : String} {m : Driver.Msg} {s : Driver.Process} (hm : m.isForeign own = true)
      (h : (w.drivers d).enqueue m = some s) : Step name (.foreign d m) (w.setDriver d s)
  | crashPassenger : Step name .crashPassenger w.endPassenger
  | restartPassenger (position destination : Position) (k : ℕ) :
      Step name (.restartPassenger position destination k)
        (w.restart name position destination k)
  | crashDriver {d : String} {s : Driver.Process} (h : (w.drivers d).step d .crash = some s) :
      Step name (.crashDriver d) (w.setDriver d s)
  | startDriver {d : String} {at_ : Driver.Launch} {s : Driver.Process}
      (h : (w.drivers d).step d (startLabel (w.drivers d) at_) = some s) :
      Step name (.startDriver d at_)
        { w.setDriver d s with starts := Function.update w.starts d (w.starts d + 1) }

variable {distance : Position → Position → ℕ} {own : ℕ → Bool} {w : World}

theorem recv_cases {o : Passenger.Oracle} {d name : String} {w' : World}
    (h : w.recv distance own o d = some w') : Step distance own w name (.recv o d) w' := by
  unfold recv at h
  split at h
  · cases h
  · cases h
  · next p m rest hactor =>
      split at h
      · next hok =>
          rw [Bool.and_eq_true] at hok
          split at h
          · next hh =>
              obtain rfl := Option.some.inj h
              exact .panics hactor hh
          · next t effects hh =>
              obtain rfl := Option.some.inj h
              exact .handles hactor hok.1 hh
      · cases h

theorem step_cases {name : String} {l : Label} {w' : World}
    (h : step distance own name w l = some w') : Step distance own w name l w' := by
  cases l with
  | recv o d => exact recv_cases h
  | notice m =>
      simp only [step] at h
      split at h
      · next hm => exact .notice hm h
      · cases h
  | answer i driversInfo =>
      simp only [step] at h
      split at h
      · next hi => exact .answer hi h
      · cases h
  | gateway isAuthorized =>
      simp only [step] at h
      split at h
      · next hauths => exact .gateway hauths h
      · cases h
  | linkDies k =>
      obtain rfl := Option.some.inj h
      exact .linkDies k
  | toDriver i =>
      simp only [step, toDriver, Option.bind_eq_bind, Option.bind_eq_some_iff] at h
      obtain ⟨⟨n, line⟩, hline, r, -, h⟩ := h
      split at h
      · obtain ⟨s, hs, h⟩ := Option.bind_eq_some_iff.1 h
        obtain rfl := Option.some.inj h
        exact .toDriver hline hs
      · cases h
  | toPassenger i =>
      simp only [step, toPassenger, Option.bind_eq_bind, Option.bind_eq_some_iff] at h
      obtain ⟨⟨n, line⟩, hline, r, -, h⟩ := h
      split at h
      · obtain ⟨w₁, hw₁, h⟩ := Option.bind_eq_some_iff.1 h
        obtain rfl := Option.some.inj h
        obtain ⟨⟨p, mailbox⟩, hactor, rfl⟩ := Option.map_eq_some_iff.1 hw₁
        exact .toPassenger hline hactor
      · cases h
  | drives d o =>
      simp only [step, drives, Option.bind_eq_bind, Option.bind_eq_some_iff] at h
      obtain ⟨⟨s, effects⟩, hrecv, h⟩ := h
      obtain rfl := Option.some.inj h
      exact .drives hrecv rfl
  | foreign d m =>
      simp only [step] at h
      split at h
      · next hm =>
          obtain ⟨s, hs, rfl⟩ := Option.map_eq_some_iff.1 h
          exact .foreign hm hs
      · cases h
  | crashPassenger =>
      simp only [step] at h
      split at h
      · obtain rfl := Option.some.inj h
        exact .crashPassenger
      · cases h
  | restartPassenger position destination k =>
      simp only [step] at h
      split at h
      · obtain rfl := Option.some.inj h
        exact .restartPassenger position destination k
      · cases h
  | crashDriver d =>
      obtain ⟨s, hs, rfl⟩ := Option.map_eq_some_iff.1 h
      exact .crashDriver hs
  | startDriver d at_ =>
      obtain ⟨s, hs, rfl⟩ := Option.map_eq_some_iff.1 h
      exact .startDriver hs

end World

end ConcuRide

import ConcuRide.Passenger.Outcome
import ConcuRide.Passenger.Process

set_option autoImplicit false

/-! # The search of a passenger

A passenger looks for a driver with a chain of messages: it asks the leader for the free drivers,
dials one of them, asks the gateway to authorize the payment, and then asks the driver.
`Passenger.Searches` lists what handling a message can do to the search: to the connection with the
driver and the authorization, what the passenger sends itself and the drivers, and what it asks the
leader and the gateway. -/

namespace ConcuRide.Passenger

open Lib

def ServerLine.isGetDrivers : ServerLine → Bool
  | .getDrivers _ => true
  | _ => false

/-- The messages a search is made of. -/
def Msg.isSearch : Msg → Bool
  | .getDrivers | .drivers _ | .requestDrive | .keepLooking | .paymentDeny => true
  | .reconnect line => line.isGetDrivers
  | _ => false

def Effect.isGetDrivers : Effect → Bool
  | .server line => line.isGetDrivers
  | _ => false

def Effect.isAuthorizePayment : Effect → Bool
  | .gateway .authorizePayment => true
  | _ => false

/-- How often a handler asks the leader for the free drivers. -/
def asks (effects : List Effect) : ℕ := effects.countP Effect.isGetDrivers

/-- How often a handler asks the gateway to authorize a payment. -/
def authorizations (effects : List Effect) : ℕ := effects.countP Effect.isAuthorizePayment

/-- The lines a handler sends to drivers. -/
def driverLines (effects : List Effect) : List (Connection × DriverLine) :=
  effects.filterMap fun
    | .driver c line => some (c, line)
    | _ => none

/-- The states a handler saves. -/
def saves (effects : List Effect) : List Json :=
  effects.filterMap fun
    | .save _ status => some status
    | _ => none

/-- The content of the file of `save_state`. -/
def status (p : Passenger) : Json :=
  match p.saveState with
  | .save _ status => status
  | _ => .null

theorem saveState_eq (p : Passenger) : p.saveState = .save (statusFile p.name) p.status := rfl

/-- The socket a handler dials with `new_connection`. -/
def dials (distance : Position → Position → ℕ) (p : Passenger) : Msg → Option String
  | .drivers driversInfo =>
    (selectDriver distance { p with driversInfo := driversInfo } 5).2.map DriverInfo.socket
  | .reconnectDriver socket => some socket
  | .recover status =>
    let p := p.restore status
    if !p.paymentConfirmed && p.paymentAuthorized then p.driverSocket else none
  | _ => none

/-- The connection a handler opens to a driver, and keeps. -/
def opens (distance : Position → Position → ℕ) (o : Oracle) (p : Passenger) (m : Msg) :
    Option Connection :=
  match m with
  | .drivers _ | .reconnectDriver _ =>
    (p.dials distance m).bind fun socket => o.driver.map fun number => ⟨socket, number⟩
  | _ => none

/-- The `request_ride` line for the driver. -/
def rideRequest (p : Passenger) : DriverLine :=
  .requestRide p.info.id p.info.position p.info.destination

/-- The search starts again when the state that was read back has no authorized payment. -/
def startsOver (p : Passenger) : Bool := !p.paymentConfirmed && !p.paymentAuthorized

/-- Two states with the same connection to a driver and the same authorization. -/
structure SameSearch (p t : Passenger) : Prop where
  connections : t.connections = p.connections
  paymentAuthorized : t.paymentAuthorized = p.paymentAuthorized

/-- **What a handler can do to the search**: the message handled, the state after it, what the
    passenger sends itself, how often it asks the leader and the gateway, and the lines it sends to
    drivers. -/
inductive Searches (distance : Position → Position → ℕ) (o : Oracle) (p : Passenger) :
    Msg → Passenger → List Msg → ℕ → ℕ → List (Connection × DriverLine) → Prop
  | aside {m : Msg} {t : Passenger} {self : List Msg} (hm : m.isSearch = false)
      (hstatus : ∀ status, m ≠ .recover status) (hauth : m ≠ .paymentAuthorized)
      (hopens : p.opens distance o m = none) (hsame : p.SameSearch t)
      (hself : ∀ x ∈ self, x.isSearch = false) : Searches distance o p m t self 0 0 []
  | asks : Searches distance o p .getDrivers p
      (if p.serverReceiver.isSome && o.connected then [] else [.reconnect (.getDrivers p.info.id)])
      1 0 []
  | asksAgain (id : ℕ) {t : Passenger} (hsame : p.SameSearch t) (n : ℕ)
      (hn : n = if o.server.isSome then 1 else 0) :
      Searches distance o p (.reconnect (.getDrivers id)) t [] n 0 []
  | nobody (driversInfo : List DriverInfo) {t : Passenger} (hsame : p.SameSearch t)
      (hopens : p.opens distance o (.drivers driversInfo) = none) :
      Searches distance o p (.drivers driversInfo) t [] 0 0 []
  | unreachable (driversInfo rest : List DriverInfo) {t : Passenger} (hsame : p.SameSearch t)
      (hopens : p.opens distance o (.drivers driversInfo) = none) :
      Searches distance o p (.drivers driversInfo) t [.drivers rest] 0 0 []
  | selects (driversInfo : List DriverInfo) (c : Connection) {t : Passenger}
      (hopens : p.opens distance o (.drivers driversInfo) = some c)
      (hconn : t.connections = (p.setConnection c).connections)
      (hauth : t.paymentAuthorized = p.paymentAuthorized) :
      Searches distance o p (.drivers driversInfo) t [] 0 1 []
  | requests (c : Connection) (hc : p.connections[0]? = some c) :
      Searches distance o p .requestDrive p [] 0 0 [(c, p.rideRequest)]
  | keepsLooking : Searches distance o p .keepLooking p [.drivers p.driversInfo] 0 0 []
  | authorized : Searches distance o p .paymentAuthorized { p with paymentAuthorized := true } []
      0 0 []
  | denied : Searches distance o p .paymentDeny { p with paymentAuthorized := false }
      [.getDrivers] 0 0 []
  | reconnects (socket : String) (c : Connection)
      (hopens : p.opens distance o (.reconnectDriver socket) = some c) :
      Searches distance o p (.reconnectDriver socket) (p.setConnection c) [] 0 0
        [(c, .reconnectDriver p.info.position)]
  | recovers (status : Json) {lines : List (Connection × DriverLine)}
      (hlines : ∀ line ∈ lines, line.2 = .recover (p.restore status).info.id) :
      Searches distance o p (.recover status) (p.restore status)
        (.login (p.restore status).name ::
          if (p.restore status).startsOver then [.getDrivers] else []) 0 0 lines

/-! ## Every handler does one of these -/

variable {distance : Position → Position → ℕ} {o : Oracle} {p t : Passenger} {m : Msg}
  {effects : List Effect}

theorem SameSearch.refl (p : Passenger) : p.SameSearch p := ⟨rfl, rfl⟩

/-- The outcome of a handler, in the form `Searches` is stated in. -/
def SearchesBy (distance : Position → Position → ℕ) (o : Oracle) (p : Passenger) (m : Msg)
    (t : Passenger) (effects : List Effect) : Prop :=
  Searches distance o p m t (selfMessages effects) (asks effects) (authorizations effects)
    (driverLines effects)

theorem getDrivers_searches : SearchesBy distance o p .getDrivers p
    (p.sendToServer o.connected (.getDrivers p.info.id)) := by
  have hasks := @Searches.asks distance o p
  unfold SearchesBy sendToServer
  split
  · next hup =>
      rw [if_pos hup] at hasks
      exact hasks
  · next hup =>
      rw [if_neg hup] at hasks
      exact hasks

theorem login_searches (name : String) : SearchesBy distance o p (.login name) p
    (p.sendToServer o.connected (.login name)) := by
  unfold SearchesBy sendToServer
  split
  · exact .aside rfl (by simp) (by simp) rfl (.refl p) (by simp [selfMessages])
  · exact .aside rfl (by simp) (by simp) rfl (.refl p)
      (by simp [selfMessages, Msg.isSearch, ServerLine.isGetDrivers])

/-- A passenger that has read its file logs in, and starts over if no payment was authorized. -/
theorem recovers_searches {status : Json} {again : Bool} {lines : List (Connection × DriverLine)}
    (hagain : (p.restore status).startsOver = again)
    (hlines : ∀ line ∈ lines, line.2 = .recover (p.restore status).info.id) :
    Searches distance o p (.recover status) (p.restore status)
      (.login (p.restore status).name :: if again then [.getDrivers] else []) 0 0 lines :=
  hagain ▸ .recovers status hlines

/-- **Every handler does one of the things `Searches` lists.** -/
theorem handle_searches (h : p.handle distance o m = some (t, effects)) :
    SearchesBy distance o p m t effects := by
  cases handle_outcome h with
  | getDrivers => exact getDrivers_searches
  | login name => exact login_searches name
  | nobody driversInfo _ hselect =>
      exact .nobody driversInfo ⟨rfl, rfl⟩ (by simp [opens, dials, hselect])
  | unreachable driversInfo others _ _ hdriver =>
      exact .unreachable driversInfo others ⟨rfl, rfl⟩ (by simp [opens, hdriver])
  | dials driversInfo _ driver number hselect hdriver =>
      exact .selects driversInfo ⟨driver.socket, number⟩
        (by simp [opens, dials, hselect, hdriver]) rfl rfl
  | requestDrive c hc => exact .requests c hc
  | keepLooking => exact .keepsLooking
  | paymentAuthorized => exact .authorized
  | paymentDeny => exact .denied
  | noServer line hserver =>
      cases line with
      | login => exact .aside rfl (by simp) (by simp) rfl (.refl p) (by simp [selfMessages])
      | getDrivers id => exact .asksAgain id (.refl p) 0 (by rw [hserver]; rfl)
  | newServer line number hserver =>
      have hsame : p.SameSearch { p with serverSender := number, serverReceiver := some number } :=
        ⟨rfl, rfl⟩
      cases line with
      | login => exact .aside rfl (by simp) (by simp) rfl hsame (by simp [selfMessages])
      | getDrivers id => exact .asksAgain id hsame 1 (by rw [hserver]; rfl)
  | noDriver socket hdriver =>
      exact .aside rfl (by simp) (by simp) (by simp [opens, hdriver]) (.refl p)
        (by simp [selfMessages])
  | newDriver socket number hdriver =>
      exact .reconnects socket ⟨socket, number⟩ (by simp [opens, dials, hdriver])
  | recoversPaid status hconf =>
      have hover : (p.restore status).startsOver = false := by simp [startsOver, hconf]
      exact recovers_searches hover (by simp [driverLines])
  | recoversDenied status hconf hauth =>
      have hover : (p.restore status).startsOver = true := by simp [startsOver, hconf, hauth]
      exact recovers_searches hover (by simp [driverLines])
  | recoversRide status _ hauth | recoversAlone status _ hauth =>
      have hover : (p.restore status).startsOver = false := by simp [startsOver, hauth]
      exact recovers_searches hover (by simp [driverLines])
  | setReceiver | completeLogin | rideAccepted | rideWaits | travels | arrives | driverArrived
  | rideEnded | rideGoesOn =>
      exact .aside rfl (by simp) (by simp) rfl ⟨rfl, rfl⟩
        (by simp [selfMessages, saveState, finishRide, Msg.isSearch])

end ConcuRide.Passenger

import ConcuRide.Passenger.Handle

set_option autoImplicit false

/-! # What a handler of the passenger does

`Passenger.Outcome` lists, once and for all, the ways through the handlers, with the state and the
effects each of them leads to. What later modules say of all handlers follows from it. -/

namespace ConcuRide.Passenger

open Lib

/-- **The ways through the handlers**: the message handled, the state after it and the effects. -/
inductive Outcome (distance : Position → Position → ℕ) (o : Oracle) (p : Passenger) :
    Msg → Passenger → List Effect → Prop
  | setReceiver (receiver : ℕ) :
      Outcome distance o p (.setReceiver receiver) { p with serverReceiver := some receiver } []
  | getDrivers : Outcome distance o p .getDrivers p
      (p.sendToServer o.connected (.getDrivers p.info.id))
  | nobody (driversInfo others : List DriverInfo)
      (hselect : selectDriver distance { p with driversInfo := driversInfo } 5
        = ({ p with driversInfo := others }, none)) :
      Outcome distance o p (.drivers driversInfo) { p with driversInfo := others }
        [{ p with driversInfo := driversInfo }.saveState]
  | unreachable (driversInfo others : List DriverInfo) (driver : DriverInfo)
      (hselect : selectDriver distance { p with driversInfo := driversInfo } 5
        = ({ p with driversInfo := others }, some driver)) (hdriver : o.driver = none) :
      Outcome distance o p (.drivers driversInfo) { p with driversInfo := others }
        [{ p with driversInfo := driversInfo }.saveState, .trySend (.drivers others)]
  | dials (driversInfo others : List DriverInfo) (driver : DriverInfo) (number : ℕ)
      (hselect : selectDriver distance { p with driversInfo := driversInfo } 5
        = ({ p with driversInfo := others }, some driver)) (hdriver : o.driver = some number) :
      Outcome distance o p (.drivers driversInfo)
        ({ p with driversInfo := others }.setConnection ⟨driver.socket, number⟩)
        [{ p with driversInfo := driversInfo }.saveState, .gateway .authorizePayment]
  | login (name : String) : Outcome distance o p (.login name) p
      (p.sendToServer o.connected (.login name))
  | travels (position : Position) (haway : position ≠ p.info.destination)
      (hmove : p.moveTo p.info.destination
        = some { p with info := { p.info with position := position } }) :
      Outcome distance o p .traveling { p with info := { p.info with position := position } }
        [p.saveState, .trySend .traveling]
  | arrives (position : Position) (hthere : position = p.info.destination)
      (hmove : p.moveTo p.info.destination
        = some { p with info := { p.info with position := position } }) :
      Outcome distance o p .traveling { p with info := { p.info with position := position } }
        (p.saveState :: p.finishRide)
  | driverArrived : Outcome distance o p .driverArrived p [.trySend .traveling]
  | completeLogin (id : ℕ) :
      Outcome distance o p (.completeLogin id) { p with info := { p.info with id := id } } []
  | rideAccepted (driverSocket : String) :
      Outcome distance o p (.rideAccepted driverSocket)
        { p with driverSocket := some driverSocket }
        [{ p with driverSocket := some driverSocket }.saveState]
  | requestDrive (c : Connection) (hc : p.connections[0]? = some c) :
      Outcome distance o p .requestDrive p
        [.driver c (.requestRide p.info.id p.info.position p.info.destination)]
  | keepLooking : Outcome distance o p .keepLooking p [.trySend (.drivers p.driversInfo)]
  | paymentAuthorized : Outcome distance o p .paymentAuthorized { p with paymentAuthorized := true }
      [{ p with paymentAuthorized := true }.saveState]
  | paymentDeny : Outcome distance o p .paymentDeny { p with paymentAuthorized := false }
      [{ p with paymentAuthorized := false }.saveState, .trySend .getDrivers]
  | rideEnded (msg : RecoverResponse) (hend : msg.endRide = true) :
      Outcome distance o p (.recoverResponse msg) p p.finishRide
  | rideGoesOn (msg : RecoverResponse) (hend : msg.endRide = false) (hup : msg.pickedUp = true) :
      Outcome distance o p (.recoverResponse msg)
        { p with info := { p.info with position := msg.position } } [.trySend .traveling]
  | rideWaits (msg : RecoverResponse) (hend : msg.endRide = false) (hup : msg.pickedUp = false) :
      Outcome distance o p (.recoverResponse msg) p []
  | noServer (line : ServerLine) (hserver : o.server = none) :
      Outcome distance o p (.reconnect line) p []
  | newServer (line : ServerLine) (number : ℕ) (hserver : o.server = some number) :
      Outcome distance o p (.reconnect line)
        { p with serverSender := number, serverReceiver := some number } [.server line]
  | noDriver (socket : String) (hdriver : o.driver = none) :
      Outcome distance o p (.reconnectDriver socket) p []
  | newDriver (socket : String) (number : ℕ) (hdriver : o.driver = some number) :
      Outcome distance o p (.reconnectDriver socket) (p.setConnection ⟨socket, number⟩)
        [.driver ⟨socket, number⟩ (.reconnectDriver p.info.position)]
  | recoversPaid (status : Json) (hconf : (p.restore status).paymentConfirmed = true) :
      Outcome distance o p (.recover status) (p.restore status)
        [.trySend (.login (p.restore status).name)]
  | recoversDenied (status : Json) (hconf : (p.restore status).paymentConfirmed = false)
      (hauth : (p.restore status).paymentAuthorized = false) :
      Outcome distance o p (.recover status) (p.restore status)
        [.trySend (.login (p.restore status).name), .trySend .getDrivers]
  | recoversRide (status : Json) (hconf : (p.restore status).paymentConfirmed = false)
      (hauth : (p.restore status).paymentAuthorized = true) (driverSocket : String) (number : ℕ)
      (hsocket : (p.restore status).driverSocket = some driverSocket)
      (hdriver : o.driver = some number) :
      Outcome distance o p (.recover status) (p.restore status)
        [.trySend (.login (p.restore status).name),
          .driver ⟨driverSocket, number⟩ (.recover (p.restore status).info.id)]
  | recoversAlone (status : Json) (hconf : (p.restore status).paymentConfirmed = false)
      (hauth : (p.restore status).paymentAuthorized = true) :
      Outcome distance o p (.recover status) (p.restore status)
        [.trySend (.login (p.restore status).name)]

variable {distance : Position → Position → ℕ} {o : Oracle} {p t : Passenger} {m : Msg}
  {effects : List Effect}

/-- Selecting a driver changes the list of drivers and nothing else. -/
theorem selectDriver_eq (p : Passenger) (range : ℕ) : ∃ driversInfo,
    (p.selectDriver distance range).1 = { p with driversInfo := driversInfo } := by
  induction range using selectDriver.induct distance p with
  | case1 range i hi =>
      rw [selectDriver, hi]
      exact ⟨_, rfl⟩
  | case2 range hnone hmax =>
      rw [selectDriver, hnone]
      simp only [if_pos hmax]
      exact ⟨_, rfl⟩
  | case3 range hnone hmax ih =>
      rw [selectDriver, hnone]
      simp only [if_neg hmax]
      exact ih

theorem drivers_outcome {driversInfo : List DriverInfo}
    (h : p.drivers distance driversInfo o.driver = (t, effects)) :
    Outcome distance o p (.drivers driversInfo) t effects := by
  obtain ⟨others, hothers⟩ := @selectDriver_eq distance { p with driversInfo := driversInfo } 5
  simp only [drivers] at h
  generalize hselect : selectDriver distance { p with driversInfo := driversInfo } 5 = r
    at h hothers
  obtain ⟨p', driverInfo⟩ := r
  obtain rfl := hothers
  cases driverInfo with
  | none =>
      obtain ⟨rfl, rfl⟩ := Prod.mk.inj h
      exact .nobody driversInfo others hselect
  | some driverInfo =>
      cases hdriver : o.driver with
      | none =>
          simp only [hdriver] at h
          obtain ⟨rfl, rfl⟩ := Prod.mk.inj h
          exact .unreachable driversInfo others driverInfo hselect hdriver
      | some number =>
          simp only [hdriver] at h
          obtain ⟨rfl, rfl⟩ := Prod.mk.inj h
          exact .dials driversInfo others driverInfo number hselect hdriver

theorem traveling_outcome (h : p.traveling = some (t, effects)) :
    Outcome distance o p .traveling t effects := by
  simp only [traveling, Option.bind_eq_bind, Option.bind_eq_some_iff] at h
  obtain ⟨p', hmove, h⟩ := h
  have hmoved := hmove
  simp only [moveTo, Option.bind_eq_bind, Option.bind_eq_some_iff] at hmoved
  obtain ⟨x, -, y, -, hp'⟩ := hmoved
  obtain rfl := Option.some.inj hp'
  split at h
  · next haway =>
      obtain ⟨rfl, rfl⟩ := Prod.mk.inj (Option.some.inj h)
      exact .travels (x, y) haway hmove
  · next hthere =>
      obtain ⟨rfl, rfl⟩ := Prod.mk.inj (Option.some.inj h)
      exact .arrives (x, y) (not_not.1 hthere) hmove

theorem recoverResponse_outcome {msg : RecoverResponse}
    (h : p.recoverResponse msg = (t, effects)) :
    Outcome distance o p (.recoverResponse msg) t effects := by
  cases hend : msg.endRide with
  | true =>
      simp only [recoverResponse, hend, if_true] at h
      obtain ⟨rfl, rfl⟩ := Prod.mk.inj h
      exact .rideEnded msg hend
  | false =>
      cases hup : msg.pickedUp with
      | true =>
          simp only [recoverResponse, hend, hup, if_true, Bool.false_eq_true, if_false] at h
          obtain ⟨rfl, rfl⟩ := Prod.mk.inj h
          exact .rideGoesOn msg hend hup
      | false =>
          simp only [recoverResponse, hend, hup, Bool.false_eq_true, if_false] at h
          obtain ⟨rfl, rfl⟩ := Prod.mk.inj h
          exact .rideWaits msg hend hup

theorem recover_outcome {status : Json} (h : p.recover status o.driver = (t, effects)) :
    Outcome distance o p (.recover status) t effects := by
  cases hconf : (p.restore status).paymentConfirmed with
  | true =>
      simp only [recover, hconf, if_true] at h
      obtain ⟨rfl, rfl⟩ := Prod.mk.inj h
      exact .recoversPaid status hconf
  | false =>
      cases hauth : (p.restore status).paymentAuthorized with
      | false =>
          simp only [recover, hconf, hauth, Bool.false_eq_true, if_false, Bool.not_false,
            if_true] at h
          obtain ⟨rfl, rfl⟩ := Prod.mk.inj h
          exact .recoversDenied status hconf hauth
      | true =>
          simp only [recover, hconf, hauth, Bool.false_eq_true, if_false, Bool.not_true] at h
          split at h
          · next driverSocket number hsocket hdriver =>
              obtain ⟨rfl, rfl⟩ := Prod.mk.inj h
              exact .recoversRide status hconf hauth driverSocket number hsocket hdriver
          · obtain ⟨rfl, rfl⟩ := Prod.mk.inj h
            exact .recoversAlone status hconf hauth

/-- **Every handler does one of the things `Outcome` lists.** -/
theorem handle_outcome (h : p.handle distance o m = some (t, effects)) :
    Outcome distance o p m t effects := by
  cases m with
  | drivers => exact drivers_outcome (Option.some.inj h)
  | traveling => exact traveling_outcome h
  | recoverResponse => exact recoverResponse_outcome (Option.some.inj h)
  | recover => exact recover_outcome (Option.some.inj h)
  | requestDrive =>
      simp only [handle, requestDrive, Option.bind_eq_bind, Option.bind_eq_some_iff] at h
      obtain ⟨c, hc, h⟩ := h
      obtain ⟨rfl, rfl⟩ := Prod.mk.inj (Option.some.inj h)
      exact .requestDrive c hc
  | reconnect line =>
      cases hserver : o.server with
      | none =>
          simp only [handle, reconnect, hserver] at h
          obtain ⟨rfl, rfl⟩ := Prod.mk.inj (Option.some.inj h)
          exact .noServer line hserver
      | some number =>
          simp only [handle, reconnect, hserver] at h
          obtain ⟨rfl, rfl⟩ := Prod.mk.inj (Option.some.inj h)
          exact .newServer line number hserver
  | reconnectDriver socket =>
      cases hdriver : o.driver with
      | none =>
          simp only [handle, reconnectDriver, hdriver] at h
          obtain ⟨rfl, rfl⟩ := Prod.mk.inj (Option.some.inj h)
          exact .noDriver socket hdriver
      | some number =>
          simp only [handle, reconnectDriver, hdriver] at h
          obtain ⟨rfl, rfl⟩ := Prod.mk.inj (Option.some.inj h)
          exact .newDriver socket number hdriver
  | _ =>
      obtain ⟨rfl, rfl⟩ := Prod.mk.inj (Option.some.inj h)
      constructor

end ConcuRide.Passenger

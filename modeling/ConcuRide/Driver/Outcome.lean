import ConcuRide.Driver.Handle

set_option autoImplicit false

/-! # What a handler of the driver does

`Driver.Outcome` lists the ways through the handlers of the driver, as `Passenger.Outcome` does for
the passenger. -/

namespace ConcuRide.Driver

open Lib

/-- **The ways through the handlers**: the message handled, the state after it and the effects. -/
inductive Outcome (o : Oracle) (d : Driver) : Msg → Driver → List Effect → Prop
  | setReceiver (link : Link) :
      Outcome o d (.setReceiver link) { d with serverReceiver := some link } []
  | register (r : Register) : Outcome o d (.register r) { d with isRegistered := true }
      (d.sendToServer o.connected (.newDriver r.socket r.name r.position) ++
        [{ d with isRegistered := true }.saveState])
  | newConnection (addr : ℕ) :
      Outcome o d (.newConnection addr) { d with connections := d.connections ++ [addr] } []
  | refuses (r : RequestRide) (hbusy : d.isAvailable = false) :
      Outcome o d (.requestRide r) d [.passenger r.addr .no]
  | accepts (r : RequestRide) {t : Driver} (hfree : d.isAvailable = true)
      (ht : t = { d with
        idCurrentPassenger := r.idPassenger
        passengerPosition := some r.origin
        destination := some r.destination
        isAvailable := false
        currentPassengerConnection := some r.addr }) :
      Outcome o d (.requestRide r) t ([.passenger r.addr (.ok d.driverSocket), t.saveState] ++
        t.sendToServer o.connected (.busyDriver d.name) ++ [.trySend .startRide])
  | startRide : Outcome o d .startRide d [.trySend .pickUpPassenger]
  | noPassenger (hnone : d.passengerPosition = none) : Outcome o d .pickUpPassenger d []
  | approaches (origin position : Position) (hpass : d.passengerPosition = some origin)
      (haway : position ≠ origin) (hmove : d.moveTo origin = some { d with position := position }) :
      Outcome o d .pickUpPassenger { d with position := position } [.trySend .pickUpPassenger]
  | picksUp (origin : Position) (hpass : d.passengerPosition = some origin)
      (hmove : d.moveTo origin = some { d with position := origin }) :
      Outcome o d .pickUpPassenger { d with position := origin, passengerPickedUp := true }
        ((d.currentPassengerConnection.toList.map fun addr =>
          .passenger addr .driverArrived) ++ [.trySend .rideToDestination])
  | noDestination (hnone : d.destination = none) :
      Outcome o d .rideToDestination d [d.saveState]
  | rides (destination position : Position) (hdst : d.destination = some destination)
      (haway : position ≠ destination)
      (hmove : d.moveTo destination = some { d with position := position }) :
      Outcome o d .rideToDestination { d with position := position }
        [d.saveState, .trySend .rideToDestination]
  | arrives (destination : Position) (hdst : d.destination = some destination)
      (hmove : d.moveTo destination = some { d with position := destination }) :
      Outcome o d .rideToDestination { d with position := destination }
        [d.saveState, .trySend (.endRide destination)]
  | endRide (dst : Position) {t : Driver}
      (ht : t = { d with position := dst, isAvailable := true, passengerPickedUp := false }) :
      Outcome o d (.endRide dst) t
        ({ d with position := dst }.sendToServer o.connected (.availableDriver d.name dst) ++
          [t.saveState])
  | responds (id addr : ℕ) (hid : d.idCurrentPassenger = id) :
      Outcome o d (.passengerRecover id addr) { d with currentPassengerConnection := some addr }
        [.passenger addr (.recoverResponse d.passengerPickedUp d.position
          (d.destination.any fun destination => decide (d.position = destination)))]
  | denies (id addr : ℕ) (hid : d.idCurrentPassenger ≠ id) :
      Outcome o d (.passengerRecover id addr) d
        [.passenger addr (.recoverResponse false d.position true)]
  | noServer (line : ServerLine) (hserver : o.server = none) :
      Outcome o d (.reconnect line) d []
  | newServer (line : ServerLine) (link : Link) (hserver : o.server = some link) :
      Outcome o d (.reconnect line) { d with serverReceiver := some link, serverSender := link }
        [.server link line]
  | recoversFree (status : Json) (socket : String) {t : Driver} (ht : d.restore status = some t)
      (hfree : t.isAvailable = true) : Outcome o d (.recovery status socket) t []
  | recoversBusy (status : Json) (socket : String) {t : Driver} (ht : d.restore status = some t)
      (hbusy : t.isAvailable = false) : Outcome o d (.recovery status socket) t
        [.server t.serverSender (.reconnectDriver t.idCurrentPassenger socket t.name),
          .trySend (if t.passengerPickedUp then .rideToDestination else .pickUpPassenger)]
  | reconnectPassenger (addr : ℕ) (position : Position) :
      Outcome o d (.reconnectPassenger addr position)
        { d with
          currentPassengerConnection := some addr
          position := position
          passengerPosition := some position } []

variable {o : Oracle} {d t : Driver} {m : Msg} {effects : List Effect}

/-- Moving changes the position and nothing else. -/
theorem moveTo_eq {destination : Position} (h : d.moveTo destination = some t) :
    ∃ position, t = { d with position := position } := by
  simp only [moveTo, Option.bind_eq_bind, Option.bind_eq_some_iff] at h
  obtain ⟨x, -, y, -, h⟩ := h
  exact ⟨(x, y), (Option.some.inj h).symm⟩

theorem requestRide_outcome {r : RequestRide} (h : d.requestRide r o.connected = (t, effects)) :
    Outcome o d (.requestRide r) t effects := by
  cases hav : d.isAvailable with
  | false =>
      simp only [requestRide, hav, Bool.not_false, if_true] at h
      obtain ⟨rfl, rfl⟩ := Prod.mk.inj h
      exact .refuses r hav
  | true =>
      simp only [requestRide, hav, Bool.not_true, Bool.false_eq_true, if_false] at h
      obtain ⟨rfl, rfl⟩ := Prod.mk.inj h
      exact .accepts r hav rfl

theorem pickUpPassenger_outcome (h : d.pickUpPassenger = some (t, effects)) :
    Outcome o d .pickUpPassenger t effects := by
  simp only [pickUpPassenger] at h
  split at h
  · next hnone =>
      obtain ⟨rfl, rfl⟩ := Prod.mk.inj (Option.some.inj h)
      exact .noPassenger hnone
  · next origin hpass =>
      simp only [Option.bind_eq_bind, Option.bind_eq_some_iff] at h
      obtain ⟨d', hmove, h⟩ := h
      obtain ⟨position, rfl⟩ := moveTo_eq hmove
      split at h
      · next haway =>
          obtain ⟨rfl, rfl⟩ := Prod.mk.inj (Option.some.inj h)
          exact .approaches origin position hpass haway hmove
      · next hthere =>
          obtain ⟨rfl, rfl⟩ := Prod.mk.inj (Option.some.inj h)
          obtain rfl := not_not.1 hthere
          exact .picksUp position hpass hmove

theorem rideToDestination_outcome (h : d.rideToDestination = some (t, effects)) :
    Outcome o d .rideToDestination t effects := by
  simp only [rideToDestination] at h
  split at h
  · next hnone =>
      obtain ⟨rfl, rfl⟩ := Prod.mk.inj (Option.some.inj h)
      exact .noDestination hnone
  · next destination hdst =>
      simp only [Option.bind_eq_bind, Option.bind_eq_some_iff] at h
      obtain ⟨d', hmove, h⟩ := h
      obtain ⟨position, rfl⟩ := moveTo_eq hmove
      split at h
      · next haway =>
          obtain ⟨rfl, rfl⟩ := Prod.mk.inj (Option.some.inj h)
          exact .rides destination position hdst haway hmove
      · next hthere =>
          obtain ⟨rfl, rfl⟩ := Prod.mk.inj (Option.some.inj h)
          obtain rfl := not_not.1 hthere
          exact .arrives position hdst hmove

theorem recovery_outcome {status : Json} {socket : String}
    (h : d.recovery status socket = some (t, effects)) :
    Outcome o d (.recovery status socket) t effects := by
  simp only [recovery, Option.bind_eq_bind, Option.bind_eq_some_iff] at h
  obtain ⟨d', hrestore, h⟩ := h
  split at h
  · next hfree =>
      obtain ⟨rfl, rfl⟩ := Prod.mk.inj (Option.some.inj h)
      exact .recoversFree status socket hrestore hfree
  · next hbusy =>
      obtain ⟨rfl, rfl⟩ := Prod.mk.inj (Option.some.inj h)
      exact .recoversBusy status socket hrestore (Bool.not_eq_true _ ▸ hbusy)

/-- **Every handler does one of the things `Outcome` lists.** -/
theorem handle_outcome (h : d.handle o m = some (t, effects)) : Outcome o d m t effects := by
  cases m with
  | requestRide => exact requestRide_outcome (Option.some.inj h)
  | pickUpPassenger => exact pickUpPassenger_outcome h
  | rideToDestination => exact rideToDestination_outcome h
  | recovery => exact recovery_outcome h
  | endRide dst =>
      obtain ⟨rfl, rfl⟩ := Prod.mk.inj (Option.some.inj h)
      exact .endRide dst rfl
  | passengerRecover id addr =>
      by_cases hid : d.idCurrentPassenger = id
      · simp only [handle, passengerRecover, if_pos hid] at h
        obtain ⟨rfl, rfl⟩ := Prod.mk.inj (Option.some.inj h)
        exact .responds id addr hid
      · simp only [handle, passengerRecover, if_neg hid] at h
        obtain ⟨rfl, rfl⟩ := Prod.mk.inj (Option.some.inj h)
        exact .denies id addr hid
  | reconnect line =>
      cases hserver : o.server with
      | none =>
          simp only [handle, reconnect, hserver] at h
          obtain ⟨rfl, rfl⟩ := Prod.mk.inj (Option.some.inj h)
          exact .noServer line hserver
      | some link =>
          simp only [handle, reconnect, hserver] at h
          obtain ⟨rfl, rfl⟩ := Prod.mk.inj (Option.some.inj h)
          exact .newServer line link hserver
  | _ =>
      obtain ⟨rfl, rfl⟩ := Prod.mk.inj (Option.some.inj h)
      constructor

end ConcuRide.Driver

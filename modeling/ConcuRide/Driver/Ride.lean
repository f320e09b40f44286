import ConcuRide.Driver.Cases

set_option autoImplicit false

/-! # The ride of a driver

A ride is a chain of messages a driver sends itself: `StartRide`, `PickUpPassenger` until it has
reached the passenger, `RideToDestination` until it has arrived, `EndRide`. `Driver.Drives` lists
what handling a message can do to the ride, which of these messages it sends, what it saves and what
it tells passengers. -/

namespace ConcuRide.Driver

open Lib

/-- The messages a ride is made of. -/
def Msg.isRide : Msg → Bool
  | .startRide | .pickUpPassenger | .rideToDestination | .endRide _ => true
  | _ => false

/-- The messages of a ride in a mailbox. -/
def rideMessages (mailbox : List Msg) : List Msg := mailbox.filter Msg.isRide

/-- The states a handler saves. -/
def saves (effects : List Effect) : List Json :=
  effects.filterMap fun
    | .save _ status => some status
    | _ => none

/-- The lines a handler sends to passengers. -/
def passengerLines (effects : List Effect) : List (ℕ × PassengerLine) :=
  effects.filterMap fun
    | .passenger addr line => some (addr, line)
    | _ => none

/-- The content of the file of `save_state`. -/
def status (d : Driver) : Json :=
  match d.saveState with
  | .save _ status => status
  | _ => .null

/-- Two states in the same ride. -/
structure SameRide (d t : Driver) : Prop where
  isAvailable : t.isAvailable = d.isAvailable
  idCurrentPassenger : t.idCurrentPassenger = d.idCurrentPassenger
  destination : t.destination = d.destination
  passengerPickedUp : t.passengerPickedUp = d.passengerPickedUp
  passengerPosition : d.passengerPosition.isSome = true → t.passengerPosition.isSome = true

/-- The driver on the ride asked for with `r`. -/
def take (d : Driver) (r : RequestRide) : Driver :=
  { d with
    idCurrentPassenger := r.idPassenger
    passengerPosition := some r.origin
    destination := some r.destination
    isAvailable := false
    currentPassengerConnection := some r.addr }

/-- The driver at the end of a ride. -/
def free (d : Driver) (dst : Position) : Driver :=
  { d with position := dst, isAvailable := true, passengerPickedUp := false }

/-- **What a handler can do to the ride**: the message handled, the state after it, the messages of
    the ride the driver sends itself, what it saves and what it tells passengers. -/
inductive Drives (d : Driver) :
    Msg → Driver → List Msg → List Json → List (ℕ × PassengerLine) → Prop
  | aside {m : Msg} {t : Driver} {saved : List Json} (hm : m.isRide = false)
      (hrequest : ∀ r, m ≠ .requestRide r) (hrecovery : ∀ status socket, m ≠ .recovery status socket)
      (hrecover : ∀ id addr, m ≠ .passengerRecover id addr) (hsame : d.SameRide t)
      (hsaved : ∀ status ∈ saved, status = t.status) : Drives d m t [] saved []
  | responds (id addr : ℕ) {t : Driver} (hsame : d.SameRide t) (pickedUp : Bool)
      (position : Position) (endRide : Bool) : Drives d (.passengerRecover id addr) t [] []
        [(addr, .recoverResponse pickedUp position endRide)]
  | refuses (r : RequestRide) (hbusy : d.isAvailable = false) :
      Drives d (.requestRide r) d [] [] [(r.addr, .no)]
  | accepts (r : RequestRide) (hfree : d.isAvailable = true) :
      Drives d (.requestRide r) (d.take r) [.startRide] [(d.take r).status]
        [(r.addr, .ok d.driverSocket)]
  | starts : Drives d .startRide d [.pickUpPassenger] [] []
  | noPassenger (hnone : d.passengerPosition = none) : Drives d .pickUpPassenger d [] [] []
  | approaches (position : Position) :
      Drives d .pickUpPassenger { d with position := position } [.pickUpPassenger] [] []
  | picksUp (position : Position) :
      Drives d .pickUpPassenger { d with position := position, passengerPickedUp := true }
        [.rideToDestination] []
        (d.currentPassengerConnection.toList.map fun addr => (addr, .driverArrived))
  | noDestination (hnone : d.destination = none) :
      Drives d .rideToDestination d [] [d.status] []
  | rides (position : Position) : Drives d .rideToDestination { d with position := position }
      [.rideToDestination] [d.status] []
  | arrives (position : Position) (hdst : d.destination = some position) :
      Drives d .rideToDestination { d with position := position }
      [.endRide position] [d.status] []
  | ends (dst : Position) :
      Drives d (.endRide dst) (d.free dst) [] [(d.free dst).status] []
  | recoversFree (status : Json) (socket : String) {t : Driver} (ht : d.restore status = some t)
      (hfree : t.isAvailable = true) : Drives d (.recovery status socket) t [] [] []
  | recoversBusy (status : Json) (socket : String) {t : Driver} (ht : d.restore status = some t)
      (hbusy : t.isAvailable = false) : Drives d (.recovery status socket) t
        [if t.passengerPickedUp then .rideToDestination else .pickUpPassenger] [] []

theorem rideMessages_append (a b : List Msg) :
    rideMessages (a ++ b) = rideMessages a ++ rideMessages b :=
  List.filter_append _ _

theorem saves_append (a b : List Effect) : saves (a ++ b) = saves a ++ saves b :=
  List.filterMap_append

theorem passengerLines_append (a b : List Effect) :
    passengerLines (a ++ b) = passengerLines a ++ passengerLines b :=
  List.filterMap_append

theorem SameRide.refl (d : Driver) : d.SameRide d := ⟨rfl, rfl, rfl, rfl, fun h => h⟩

variable {o : Oracle} {d t : Driver} {m : Msg} {effects : List Effect}

/-- The lines for the leader are no part of the ride. -/
theorem sendToServer_aside (connected : Bool) (line : ServerLine) :
    rideMessages (selfMessages (d.sendToServer connected line)) = [] ∧
      saves (d.sendToServer connected line) = [] ∧
      passengerLines (d.sendToServer connected line) = [] := by
  unfold sendToServer
  split <;> exact ⟨rfl, rfl, rfl⟩

/-- The outcome of a handler, in the form `Drives` is stated in. -/
def DrivesBy (d : Driver) (m : Msg) (t : Driver) (effects : List Effect) : Prop :=
  Drives d m t (rideMessages (selfMessages effects)) (saves effects) (passengerLines effects)

theorem accepts_drives (r : RequestRide) (hfree : d.isAvailable = true) (connected : Bool) :
    DrivesBy d (.requestRide r) (d.take r)
      ([.passenger r.addr (.ok d.driverSocket), (d.take r).saveState] ++
        (d.take r).sendToServer connected (.busyDriver d.name) ++ [.trySend .startRide]) := by
  obtain ⟨hride, hsaves, hlines⟩ :=
    sendToServer_aside (d := d.take r) connected (.busyDriver d.name)
  unfold DrivesBy
  rw [selfMessages_append, selfMessages_append, rideMessages_append, rideMessages_append,
    saves_append, saves_append, passengerLines_append, passengerLines_append, hride, hsaves, hlines]
  exact .accepts r hfree

theorem ends_drives (dst : Position) (connected : Bool) :
    DrivesBy d (.endRide dst) (d.free dst)
      ({ d with position := dst }.sendToServer connected (.availableDriver d.name dst) ++
        [(d.free dst).saveState]) := by
  obtain ⟨hride, hsaves, hlines⟩ :=
    sendToServer_aside (d := { d with position := dst }) connected (.availableDriver d.name dst)
  unfold DrivesBy
  rw [selfMessages_append, rideMessages_append, saves_append, passengerLines_append, hride, hsaves,
    hlines]
  exact .ends dst

theorem register_drives (r : Register) (connected : Bool) :
    DrivesBy d (.register r) { d with isRegistered := true }
      (d.sendToServer connected (.newDriver r.socket r.name r.position) ++
        [{ d with isRegistered := true }.saveState]) := by
  obtain ⟨hride, hsaves, hlines⟩ :=
    sendToServer_aside (d := d) connected (.newDriver r.socket r.name r.position)
  unfold DrivesBy
  rw [selfMessages_append, rideMessages_append, saves_append, passengerLines_append, hride, hsaves,
    hlines]
  exact .aside rfl (by simp) (by simp) (by simp) ⟨rfl, rfl, rfl, rfl, fun h => h⟩
    fun status hstatus => List.mem_singleton.1 hstatus

/-- **Every handler does one of the things `Drives` lists.** -/
theorem handle_drives (h : d.handle o m = some (t, effects)) : DrivesBy d m t effects := by
  cases handle_outcome h with
  | register r => exact register_drives r o.connected
  | refuses r hbusy => exact .refuses r hbusy
  | accepts r hfree ht =>
      subst ht
      exact accepts_drives r hfree o.connected
  | startRide => exact .starts
  | noPassenger hnone => exact .noPassenger hnone
  | approaches _ position => exact .approaches position
  | picksUp origin =>
      have hpicks := Drives.picksUp (d := d) origin
      unfold DrivesBy
      cases hconn : d.currentPassengerConnection <;>
        · rw [hconn] at hpicks
          exact hpicks
  | noDestination hnone => exact .noDestination hnone
  | rides _ position => exact .rides position
  | arrives destination hdst => exact .arrives destination hdst
  | endRide dst ht =>
      subst ht
      exact ends_drives dst o.connected
  | responds id addr =>
      have hsame : d.SameRide { d with currentPassengerConnection := some addr } :=
        ⟨rfl, rfl, rfl, rfl, fun h => h⟩
      exact .responds id addr hsame _ _ _
  | denies id addr => exact .responds id addr (.refl d) false d.position true
  | recoversFree status socket ht hfree => exact .recoversFree status socket ht hfree
  | recoversBusy status socket ht hbusy =>
      have hrecovers := Drives.recoversBusy status socket ht hbusy
      unfold DrivesBy
      cases hup : t.passengerPickedUp <;>
        · rw [hup] at hrecovers
          exact hrecovers
  | setReceiver | newConnection | noServer | newServer =>
      exact .aside rfl (by simp) (by simp) (by simp) ⟨rfl, rfl, rfl, rfl, fun h => h⟩
        (by simp [saves])
  | reconnectPassenger =>
      exact .aside rfl (by simp) (by simp) (by simp) ⟨rfl, rfl, rfl, rfl, fun _ => rfl⟩
        (by simp [saves])

end ConcuRide.Driver

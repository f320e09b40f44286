import ConcuRide.Driver.Ride
import ConcuRide.Lib.Run

set_option autoImplicit false

/-! # The driver process

A driver actor with its mailbox and the states it has saved, from its first start through crashes
and restarts. A driver that is on a ride has exactly one message of the ride in its mailbox,
whichever of the states it saved it was restarted from. -/

namespace ConcuRide.Driver

open Lib

/-- A state the driver has saved, and the ride it had accepted last by then. -/
structure Version where
  status : Json
  ride : Option RequestRide

/-- The actor and its mailbox (`none` while the process is not running), the states it has saved,
    newest first, and the ride accepted last. -/
structure Process where
  actor : Option (Driver × List Msg)
  versions : List Version
  ride : Option RequestRide

/-- What a start of the program finds: its position argument, the socket it listens on and the
    connection to the leader. -/
structure Launch where
  position : Position
  driverSocket : String
  serverSender : Link

/-- The messages that may reach a running driver. -/
def Msg.mayArrive : Msg → Bool
  | .newConnection _ | .requestRide _ | .passengerRecover _ _ | .reconnectPassenger _ _
  | .register _ | .reconnect _ => true
  | _ => false

/-- One step of the process. -/
inductive Process.Label where
  /-- the actor handles the next message of its mailbox -/
  | recv (o : Oracle)
  | arrives (m : Msg)
  | crash
  /-- the program is started -/
  | launch (at_ : Launch)
  /-- the program is started with the recovery flag, and finds the `i`-th state it saved -/
  | recover (i : ℕ) (at_ : Launch)

namespace Process

/-- The process before the program is started for the first time. -/
def init : Process := { actor := none, versions := [], ride := none }

variable (s : Process)

def mailbox : List Msg := s.actor.elim [] Prod.snd

/-- The ride accepted last, once the driver has handled `m`. -/
def rideAfter (ride : Option RequestRide) (d : Driver) : Msg → Option RequestRide
  | .requestRide r => if d.isAvailable then some r else ride
  | _ => ride

/-- The states a handler that panics has saved before: `RideToDestination` saves the state and then
    moves. -/
def savedBeforePanic (d : Driver) : Msg → List Json
  | .rideToDestination => saves [d.saveState]
  | _ => []

/-- The actor handles the next message of its mailbox. A handler that panics ends the actor. -/
def recv (o : Oracle) : Option (Process × List Effect) :=
  match s.actor with
  | none | some (_, []) => none
  | some (d, m :: rest) =>
    match d.handle o m with
    | none =>
      some ({ s with
        actor := none
        versions := (savedBeforePanic d m).map (fun status => ⟨status, s.ride⟩) ++ s.versions }, [])
    | some (t, effects) =>
      let ride := rideAfter s.ride d m
      some ({ actor := some (t, rest ++ selfMessages effects)
              versions := (saves effects).map (fun status => ⟨status, ride⟩) ++ s.versions
              ride := ride }, effects)

/-- Put a message in the mailbox. -/
def enqueue (m : Msg) : Option Process :=
  s.actor.map fun (d, mailbox) => { s with actor := some (d, mailbox ++ [m]) }

/-- `main`: the driver and the first messages of its mailbox, with the state that `main` reads when
    it recovers. -/
def launched (name : String) (at_ : Launch) (status : Option Json) : Driver × List Msg :=
  (Driver.start name at_.driverSocket at_.position at_.serverSender,
    .setReceiver at_.serverSender ::
      status.toList.map (fun status => Msg.recovery status at_.driverSocket) ++
      [.register { socket := at_.driverSocket, name := name, position := at_.position }])

/-- The process after a step, if the step is possible. -/
def step (name : String) (s : Process) : Label → Option Process
  | .recv o => (s.recv o).map Prod.fst
  | .arrives m => if m.mayArrive then s.enqueue m else none
  | .crash => if s.actor.isSome then some { s with actor := none } else none
  | .launch at_ =>
    if s.actor.isSome then none
    else some { s with actor := some (launched name at_ none), ride := none }
  | .recover i at_ =>
    if s.actor.isSome then none
    else s.versions[i]?.map fun v =>
      { s with actor := some (launched name at_ (some v.status)), ride := v.ride }

/-- **The steps of the process**, one case for each way a step is possible. -/
inductive Step (name : String) (s : Process) : Label → Process → Prop
  | recv {o : Oracle} {t : Process} {effects : List Effect} (h : s.recv o = some (t, effects)) :
      Step name s (.recv o) t
  | arrives {m : Msg} {d : Driver} {mailbox : List Msg} (hm : m.mayArrive = true)
      (hactor : s.actor = some (d, mailbox)) :
      Step name s (.arrives m) { s with actor := some (d, mailbox ++ [m]) }
  | crash : Step name s .crash { s with actor := none }
  | launch (at_ : Launch) (hnone : s.actor = none) :
      Step name s (.launch at_) { s with actor := some (launched name at_ none), ride := none }
  | recover {i : ℕ} {v : Version} (at_ : Launch) (hnone : s.actor = none)
      (hv : s.versions[i]? = some v) : Step name s (.recover i at_)
        { s with actor := some (launched name at_ (some v.status)), ride := v.ride }

variable {s}

theorem step_cases {name : String} {l : Label} {t : Process} (h : step name s l = some t) :
    Step name s l t := by
  cases l with
  | recv o =>
      obtain ⟨⟨t', effects⟩, hrecv, rfl⟩ := Option.map_eq_some_iff.1 h
      exact .recv hrecv
  | arrives m =>
      simp only [step] at h
      split at h
      · next hm =>
          obtain ⟨⟨d, mailbox⟩, hactor, rfl⟩ := Option.map_eq_some_iff.1 h
          exact .arrives hm hactor
      · cases h
  | crash =>
      simp only [step] at h
      split at h
      · obtain rfl := Option.some.inj h
        exact .crash
      · cases h
  | launch at_ =>
      simp only [step] at h
      split at h
      · cases h
      · next hnone =>
          obtain rfl := Option.some.inj h
          exact .launch at_ (Option.not_isSome_iff_eq_none.1 hnone)
  | recover i at_ =>
      simp only [step] at h
      split at h
      · cases h
      · next hnone =>
          obtain ⟨v, hv, rfl⟩ := Option.map_eq_some_iff.1 h
          exact .recover at_ (Option.not_isSome_iff_eq_none.1 hnone) hv

end Process

/-! ## Reading back a saved state -/

theorem status_get (d : Driver) (key : String) : d.status.get key = (([
      ("name", .str d.name),
      ("is_available", .bool d.isAvailable),
      ("position", jsonOfPosition d.position),
      ("id_current_passenger", .num d.idCurrentPassenger),
      ("passenger_position", .ofOption jsonOfPosition d.passengerPosition),
      ("destination", .ofOption jsonOfPosition d.destination),
      ("passenger_picked_up", .bool d.passengerPickedUp),
      ("is_registered", .bool d.isRegistered),
      ("driver_socket", .str d.driverSocket) ] : List (String × Json)).reverse.lookup key).getD
        .null :=
  Json.get_object key _

theorem restorePosition_some {status : Json} {key : String} {old : Option Position}
    {position : Position} (h : status.get key = jsonOfPosition position) :
    restorePosition status key old = some (some position) := by
  rw [restorePosition, h]
  rfl

theorem restorePosition_ofOption {status : Json} {key : String} {old new : Option Position}
    (h : status.get key = .ofOption jsonOfPosition new) :
    restorePosition status key old = some (new.or old) := by
  cases new with
  | none =>
      rw [restorePosition, h]
      rfl
  | some position => exact restorePosition_some h

/-- **A saved state is read back as it was**, except for positions that were not set. -/
theorem restore_status (d saved : Driver) : d.restore saved.status = some { d with
    destination := saved.destination.or d.destination
    isAvailable := saved.isAvailable
    isRegistered := saved.isRegistered
    idCurrentPassenger := saved.idCurrentPassenger
    passengerPickedUp := saved.passengerPickedUp
    passengerPosition := saved.passengerPosition.or d.passengerPosition
    position := saved.position } := by
  have hdst : saved.status.get "destination" = .ofOption jsonOfPosition saved.destination := by
    simp [status_get, List.lookup_cons]
  have hpass : saved.status.get "passenger_position"
      = .ofOption jsonOfPosition saved.passengerPosition := by
    simp [status_get, List.lookup_cons]
  have hpos : saved.status.get "position" = jsonOfPosition saved.position := by
    simp [status_get, List.lookup_cons]
  have hav : saved.status.get "is_available" = .bool saved.isAvailable := by
    simp [status_get, List.lookup_cons]
  have hreg : saved.status.get "is_registered" = .bool saved.isRegistered := by
    simp [status_get, List.lookup_cons]
  have hid : saved.status.get "id_current_passenger" = .num saved.idCurrentPassenger := by
    simp [status_get, List.lookup_cons]
  have hup : saved.status.get "passenger_picked_up" = .bool saved.passengerPickedUp := by
    simp [status_get, List.lookup_cons]
  simp only [restore, restorePosition_ofOption hdst, restorePosition_ofOption hpass,
    restorePosition_some hpos, hav, hreg, hid, hup]
  rfl

/-- **A driver goes on from the state it has saved**: whatever state was saved, the driver `main`
    starts reads all of it back, and sends itself the message of the ride it is on, if it is on one. -/
theorem recovery_resumes (saved : Driver) (name : String) (at_ : Launch) (o : Oracle) :
    saved.saveState = .save (statusFile saved.name) saved.status ∧
    ∃ t effects,
      ((Driver.start name at_.driverSocket at_.position at_.serverSender).setReceiver
        at_.serverSender).1.handle o (.recovery saved.status at_.driverSocket) = some (t, effects) ∧
      t.isAvailable = saved.isAvailable ∧ t.isRegistered = saved.isRegistered ∧
      t.idCurrentPassenger = saved.idCurrentPassenger ∧
      t.passengerPickedUp = saved.passengerPickedUp ∧ t.position = saved.position ∧
      t.passengerPosition = saved.passengerPosition ∧ t.destination = saved.destination ∧
      selfMessages effects =
        if saved.isAvailable then []
        else [if saved.passengerPickedUp then .rideToDestination else .pickUpPassenger] := by
  refine ⟨rfl, ?_⟩
  simp only [handle, recovery, restore_status, Option.bind_eq_bind, Option.bind_some]
  have hor : ∀ position : Option Position, position.or none = position := fun position => by simp
  cases hav : saved.isAvailable with
  | true => exact ⟨_, _, rfl, rfl, rfl, rfl, rfl, rfl, hor _, hor _, rfl⟩
  | false => exact ⟨_, _, rfl, rfl, rfl, rfl, rfl, rfl, hor _, hor _, rfl⟩

end ConcuRide.Driver

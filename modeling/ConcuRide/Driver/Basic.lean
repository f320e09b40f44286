import ConcuRide.Driver.Messages

set_option autoImplicit false

/-! # The driver actor

The state of `driver/src/driver.rs` and its methods. -/

namespace ConcuRide

open Lib

/-- `struct Driver`. The connections to passengers are known by numbers. -/
structure Driver where
  serverReceiver : Option Driver.Link
  serverSender : Driver.Link
  connections : List ℕ
  idCurrentPassenger : ℕ
  isAvailable : Bool
  isRegistered : Bool
  position : Position
  passengerPosition : Option Position
  destination : Option Position
  name : String
  currentPassengerConnection : Option ℕ
  passengerPickedUp : Bool
  driverSocket : String

namespace Driver

/-- `Driver::move_to`; `none` when a coordinate underflows. -/
def moveTo (d : Driver) (destination : Position) : Option Driver := do
  let x ← moveCoordinate d.position.1 destination.1
  let y ← moveCoordinate d.position.2 destination.2
  return { d with position := (x, y) }

/-- The file a driver saves its state in. -/
def statusFile (name : String) : String := "driver_" ++ name ++ ".json"

def jsonOfPosition (position : Position) : Json := .arr [.num position.1, .num position.2]

/-- `Driver::save_state`. -/
def saveState (d : Driver) : Effect :=
  .save (statusFile d.name) <| Json.object
    [ ("name", .str d.name),
      ("is_available", .bool d.isAvailable),
      ("position", jsonOfPosition d.position),
      ("id_current_passenger", .num d.idCurrentPassenger),
      ("passenger_position", .ofOption jsonOfPosition d.passengerPosition),
      ("destination", .ofOption jsonOfPosition d.destination),
      ("passenger_picked_up", .bool d.passengerPickedUp),
      ("is_registered", .bool d.isRegistered),
      ("driver_socket", .str d.driverSocket) ]

/-- The driver `main` starts, connected to the leader. -/
def start (name driverSocket : String) (position : Position) (serverSender : Link) : Driver where
  serverReceiver := none
  serverSender := serverSender
  connections := []
  idCurrentPassenger := 0
  isAvailable := true
  isRegistered := false
  position := position
  passengerPosition := none
  destination := none
  name := name
  currentPassengerConnection := none
  passengerPickedUp := false
  driverSocket := driverSocket

end Driver

end ConcuRide

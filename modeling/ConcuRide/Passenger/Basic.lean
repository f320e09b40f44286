import ConcuRide.Passenger.Messages

set_option autoImplicit false

/-! # The passenger actor

The state of `passenger/src/passenger.rs` and its methods. -/

namespace ConcuRide

open Lib

/-- `PassengerInfo`. -/
structure PassengerInfo where
  id : ℕ
  position : Position
  destination : Position
deriving DecidableEq, Repr

/-- `struct Passenger`. The connections to the leader are known by numbers, and the connection to
    the gateway is always there. -/
structure Passenger where
  name : String
  info : PassengerInfo
  recovery : Bool
  paymentAuthorized : Bool
  paymentConfirmed : Bool
  serverReceiver : Option ℕ
  serverSender : ℕ
  connections : List Passenger.Connection
  driversInfo : List Passenger.DriverInfo
  driverSocket : Option String

namespace Passenger

def MAX_RANGE : ℕ := 1000

/-- `Passenger::select_driver`, where `distance` (rounded from floating point in
    `passenger/src/functions.rs`) may be any function. -/
def selectDriver (distance : Position → Position → ℕ) (p : Passenger) (range : ℕ) :
    Passenger × Option DriverInfo :=
  match p.driversInfo.findIdx? fun driver =>
      decide (distance p.info.position driver.position < range) with
  | some i => ({ p with driversInfo := p.driversInfo.eraseIdx i }, p.driversInfo[i]?)
  | none => if range > MAX_RANGE then (p, none) else p.selectDriver distance (range + 10)
termination_by MAX_RANGE + 10 - range

/-- The file a passenger saves its state in. -/
def statusFile (name : String) : String := "passenger_" ++ name ++ ".json"

/-- `Passenger::save_state`. The key `id` is written twice. -/
def saveState (p : Passenger) : Effect :=
  .save (statusFile p.name) <| Json.object
    [ ("drivers", .arr (p.driversInfo.map fun d => .object
        [("socket", .str d.socket), ("position", .arr [.num d.position.1, .num d.position.2])])),
      ("driver_socket", .ofOption .str p.driverSocket),
      ("payment_authorized", .bool p.paymentAuthorized),
      ("id", .bool p.paymentConfirmed),
      ("id", .num p.info.id) ]

/-- `Passenger::move_to`. -/
def moveTo (p : Passenger) (destination : Position) : Option Passenger := do
  let x ← moveCoordinate p.info.position.1 destination.1
  let y ← moveCoordinate p.info.position.2 destination.2
  return { p with info := { p.info with position := (x, y) } }

/-- The passenger `main` starts, connected to the leader. -/
def start (name : String) (position destination : Position) (recovery : Bool)
    (serverSender : ℕ) : Passenger where
  name := name
  info := { id := 0, position := position, destination := destination }
  recovery := recovery
  paymentAuthorized := false
  paymentConfirmed := false
  serverReceiver := none
  serverSender := serverSender
  connections := []
  driversInfo := []
  driverSocket := none

end Passenger

end ConcuRide

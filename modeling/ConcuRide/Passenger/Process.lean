import Mathlib.Logic.Function.Basic
import ConcuRide.Lib.History
import ConcuRide.Lib.Run
import ConcuRide.Passenger.Handle

set_option autoImplicit false

/-! # The passenger process

A passenger actor with its mailbox and the files it leaves behind, from its first start through
crashes and restarts with the recovery flag. What the leader, the drivers and the gateway send may
arrive at any moment and in any order. -/

namespace ConcuRide.Passenger

open Lib

/-- What a handler sends to its own mailbox. -/
def selfMessages (effects : List Effect) : List Msg :=
  effects.filterMap fun
    | .trySend m => some m
    | _ => none

def Effect.isPayment : Effect → Bool
  | .gateway (.confirmPayment _) => true
  | _ => false

/-- How often a handler asks the gateway to confirm the payment. -/
def payments (effects : List Effect) : ℕ := effects.countP Effect.isPayment

/-- The files after a handler has saved the state. -/
def saveFiles (files : String → Option Json) (effects : List Effect) : String → Option Json :=
  effects.foldl (fun files effect =>
    match effect with
    | .save file status => Function.update files file (some status)
    | _ => files) files

/-- What is remembered of the past of a passenger. -/
inductive Event where
  /-- a driver has accepted a ride -/
  | accepted
  /-- `ConfirmPayment` was sent to the gateway -/
  | confirmed
deriving DecidableEq, Repr

/-- The events of a handled message. -/
def events (m : Msg) (effects : List Effect) : List Event :=
  List.replicate (payments effects) .confirmed ++
    match m with
    | .rideAccepted _ => [.accepted]
    | _ => []

/-- The actor and its mailbox (`none` while the process is not running), the files, and the past,
    newest event first. -/
structure Process where
  actor : Option (Passenger × List Msg)
  files : String → Option Json
  log : List Event

/-- One step of the process. The end of the program after a ride is a `crash` as well: it comes some
    time after the permit. -/
inductive Label where
  /-- the actor handles the next message of its mailbox -/
  | recv (o : Oracle)
  /-- a line of the leader or of a driver arrives -/
  | line (m : Msg)
  /-- the gateway's answer to `AuthorizePayment` arrives -/
  | gateway (isAuthorized : Bool)
  | crash
  /-- the program is started with the recovery flag -/
  | restart (position destination : Position) (serverSender : ℕ)

namespace Process

/-- The process after the first start of the program. -/
def start (name : String) (position destination : Position) (serverSender : ℕ) : Process where
  actor := some (Passenger.start name position destination false serverSender,
    [.setReceiver serverSender, .login name, .getDrivers])
  files := fun _ => none
  log := []

variable (s : Process)

def mailbox : List Msg := s.actor.elim [] Prod.snd

/-- Put messages in the mailbox. -/
def enqueue (messages : List Msg) : Option Process :=
  s.actor.map fun (p, mailbox) => { s with actor := some (p, mailbox ++ messages) }

/-- What a handler that panics has saved before: `Traveling` saves the state and then moves. -/
def savedBeforePanic (p : Passenger) : Msg → List Effect
  | .traveling => [p.saveState]
  | _ => []

/-- The actor handles the next message of its mailbox. A handler that panics ends the actor. -/
def recv (distance : Position → Position → ℕ) (o : Oracle) : Option Process :=
  match s.actor with
  | none | some (_, []) => none
  | some (p, m :: rest) =>
    match p.handle distance o m with
    | none =>
      some { s with actor := none, files := saveFiles s.files (savedBeforePanic p m) }
    | some (p, effects) =>
      some
        { actor := some (p, rest ++ selfMessages effects)
          files := saveFiles s.files effects
          log := events m effects ++ s.log }

/-- `main` with the recovery flag: the saved state is read back, if there is one. -/
def restart (name : String) (position destination : Position) (serverSender : ℕ) : Process :=
  { s with
    actor := some (Passenger.start name position destination true serverSender,
      .setReceiver serverSender ::
        match s.files (statusFile name) with
        | some status => [.recover status]
        | none => [.login name, .getDrivers]) }

/-- The process after a step, if the step is possible. -/
def step (distance : Position → Position → ℕ) (name : String) (s : Process) :
    Label → Option Process
  | .recv o => s.recv distance o
  | .line m => if m.isLine then s.enqueue [m] else none
  | .gateway isAuthorized => s.enqueue (paymentAuthorizationStatus isAuthorized)
  | .crash => if s.actor.isSome then some { s with actor := none } else none
  | .restart position destination serverSender =>
    if s.actor.isNone then some (s.restart name position destination serverSender) else none

end Process

end ConcuRide.Passenger

import ConcuRide.Driver.Notices

set_option autoImplicit false

/-! # A driver that crashes, and a leader that does not

One leader, and the process of one driver with its status file and its connections to the leader.
The driver can crash at any point of a handler: what the handler has sent and saved by then is
there, the rest is not, and the lines its `TcpSender` has not written yet are lost. It is started
again with the recovery flag, on a new connection. Lines that were written before may still be on
their way. -/

namespace ConcuRide

open Lib

/-- The status file of a driver: not there yet, emptied by a `save_state` that did not come to write
    it, or with a state. -/
inductive StatusFile where
  | missing
  | torn
  | saved (status : Json)

/-- The process of a driver. When a handler panics, the actor is gone and the process is not. -/
inductive Life where
  | off
  | stuck
  | running (d : Driver) (mailbox : List Driver.Msg)

/-- The leader with its mailbox, and the driver: the lines of its earlier connections and of the
    current one that have not reached the leader yet, its file and its process. -/
structure Cab where
  srv : Server
  mailbox : List Msg
  older : List (List Driver.ServerLine)
  wire : List Driver.ServerLine
  file : StatusFile
  life : Life

namespace StatusFile

/-- The file after a handler has saved `states`. -/
def write (file : StatusFile) (states : List Json) : StatusFile :=
  states.getLast?.elim file saved

/-- Where the driver is, as far as the file tells. -/
def standing : StatusFile → Option Standing
  | saved status => Driver.savedStanding status
  | _ => none

end StatusFile

namespace Cab

/-- One step of the leader or of the driver. -/
inductive Label where
  /-- a message of somebody else reaches the leader -/
  | post (m : Msg)
  /-- the leader handles the next message of its mailbox -/
  | handle (o : Oracle)
  /-- the next line of the current connection reaches the leader -/
  | deliver
  /-- the next line of the `i`-th earlier connection reaches the leader -/
  | deliverOlder (i : ℕ)
  /-- a passenger's message, or its connection, reaches the driver -/
  | arrives (m : Driver.Msg)
  /-- the driver handles the next message of its mailbox -/
  | recv
  /-- the driver crashes after the first `k` things its next handler does, while it writes its file
      if that is what it does next and `torn`; `kept` lines get through from the current connection
      -/
  | crash (k : ℕ) (torn : Bool) (kept : ℕ)
  /-- the driver is started, with the recovery flag from the second time on -/
  | start (at_ : Driver.Launch)

def init (N id : ℕ) : Cab where
  srv := Server.lider N id
  mailbox := []
  older := []
  wire := []
  file := .missing
  life := .off

/-- What the driver sends to the leader and saves. -/
def emit (w : Cab) (effects : List Driver.Effect) : Cab :=
  { w with
    wire := w.wire ++ Driver.notices effects
    file := w.file.write (Driver.saves effects) }

/-- The leader is up, and so is the connection to it. -/
def handler (d : Driver) (m : Driver.Msg) : Option (Driver × List Driver.Effect) :=
  d.handle Driver.Process.up m

/-- What a handler that panics has done before. -/
def beforePanic (d : Driver) (m : Driver.Msg) : List Driver.Effect :=
  (Driver.Process.savedBeforePanic d m).map (Driver.Effect.save (Driver.statusFile d.name))

/-- What the next handler of the driver does, one thing after the other. -/
def nextEffects (w : Cab) : List Driver.Effect :=
  match w.life with
  | .running d (m :: _) => ((handler d m).map Prod.snd).getD (beforePanic d m)
  | _ => []

def isSave : Driver.Effect → Bool
  | .save _ _ => true
  | _ => false

/-- The driver handles the next message of its mailbox. -/
def recv (w : Cab) : Option Cab :=
  match w.life with
  | .running d (m :: rest) =>
    match handler d m with
    | some (t, effects) =>
      some { w.emit effects with life := .running t (rest ++ Driver.selfMessages effects) }
    | none => some { w.emit (beforePanic d m) with life := .stuck }
  | _ => none

/-- What a crash leaves. -/
def crash (w : Cab) (k : ℕ) (torn : Bool) (kept : ℕ) : Cab :=
  let left := w.emit (w.nextEffects.take k)
  { left with
    wire := left.wire.take kept
    file := if torn && w.nextEffects[k]?.any isSave then .torn else left.file
    life := .off }

/-- The driver is started and reads its file; it does not start on a file it cannot read. -/
def start (name : String) (w : Cab) (at_ : Driver.Launch) : Option Cab :=
  let launched (status : Option Json) : Cab :=
    let (d, mailbox) := Driver.Process.launched name at_ status
    { w with older := w.older ++ [w.wire], wire := [], life := .running d mailbox }
  match w.life, w.file with
  | .off, .missing => some (launched none)
  | .off, .saved status => some (launched (some status))
  | _, _ => none

/-- The next line of the current connection reaches the leader. -/
def deliver (w : Cab) : Option Cab :=
  match w.wire with
  | [] => none
  | line :: rest => some { w with mailbox := w.mailbox ++ [line.toMsg], wire := rest }

/-- The next line of an earlier connection reaches the leader. -/
def deliverOlder (w : Cab) (i : ℕ) : Option Cab :=
  match w.older[i]? with
  | some (line :: rest) =>
    some { w with mailbox := w.mailbox ++ [line.toMsg], older := w.older.set i rest }
  | _ => none

/-- A copy of another registry; no replica sends one to a leader. -/
def isCopy : Msg → Bool
  | .updateNetworkState _ => true
  | _ => false

/-- One step, if it is possible. Nobody but the driver sends messages about it. -/
def step (N : ℕ) (name : String) (w : Cab) : Label → Option Cab
  | .post m =>
    if m.moves = some name ∨ isCopy m then none else some { w with mailbox := w.mailbox ++ [m] }
  | .handle o =>
    match w.mailbox with
    | [] => none
    | m :: rest => (w.srv.handle N o m).map fun (srv, effects) =>
      { w with srv := srv, mailbox := rest ++ selfMessages effects }
  | .deliver => w.deliver
  | .deliverOlder i => w.deliverOlder i
  | .arrives m =>
    match w.life with
    | .running d mailbox =>
      if m.isExternal then some { w with life := .running d (mailbox ++ [m]) } else none
    | _ => none
  | .recv => w.recv
  | .crash k torn kept =>
    match w.life with
    | .off => none
    | _ => some (w.crash k torn kept)
  | .start at_ => w.start name at_

/-! ## What the leader is going to know -/

/-- The messages and lines of the driver, and others, the leader has yet to handle, in the order in
    which they were sent. -/
def pending (w : Cab) : List Msg :=
  w.mailbox ++ (w.older.flatten ++ w.wire).map Driver.ServerLine.toMsg

/-- What the leader knows about the driver once it has handled what is pending. -/
def told (name : String) (w : Cab) : Option Standing :=
  w.pending.foldl (Standing.hear name) (w.srv.standing name)

/-- The file says what the leader has been told, as far as there are a file and a leader that knows
    the driver. -/
def agrees (name : String) (w : Cab) : Bool :=
  match w.told name, w.file.standing with
  | some st, some saved => decide (st = saved)
  | _, _ => true

/-- The step does not bring the driver and the leader apart: a crash leaves the state in the file
    that the lines that get through tell; a driver the leader has not heard of, or that has no file,
    is started at the position the other side has; a line does not overtake one of an earlier
    connection that it makes a difference to; and a free driver does not take another position from
    a passenger. -/
def keepsInStep (name : String) (w : Cab) : Label → Bool
  | .crash k torn kept => (w.crash k torn kept).agrees name
  | .start at_ =>
    match w.told name, w.file.standing with
    | some st, none => decide (st = .free at_.position)
    | none, some saved => decide (saved = .free at_.position)
    | _, _ => true
  | .deliver => w.deliver.all fun w' => decide (w'.told name = w.told name)
  | .deliverOlder i => (w.deliverOlder i).all fun w' => decide (w'.told name = w.told name)
  | .recv =>
    match w.life with
    | .running d (m :: _) => d.follows m
    | _ => true
  | _ => true

end Cab

end ConcuRide
